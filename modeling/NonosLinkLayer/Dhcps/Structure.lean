import NonosLinkLayer.Dhcps.Relinking

namespace NonosLinkLayer.Dhcps.Nodes
open HeapList LinkPool

structure Shows (s : State) (t : Server) : Prop where
  list : ∃ cells, Chain s.heap s.plist cells ∧ cells.map s.heap.pnode = t.plist
  lease : s.dhcpsLease = t.dhcpsLease
  renew : s.renew = t.renew
  time : s.dhcpsLeaseTime = t.dhcpsLeaseTime

section Places
variable {h : PoolHeap} {head c : Ptr} {cells behind ahead : List Ptr} {i : Nat}

theorem split_at (here : cells[i]? = some c) : ∃ behind ahead, cells = behind ++ c :: ahead ∧ behind.length = i := by
  obtain ⟨inside,same⟩ := List.getElem?_eq_some_iff.mp here
  refine ⟨cells.take i,cells.drop (i+1),?_,by rw [List.length_take]; omega⟩
  rw [←same,←List.drop_eq_getElem_cons inside,List.take_append_drop]

theorem erase_split : (behind ++ c :: ahead).eraseIdx behind.length = behind ++ ahead := by
  rw [List.eraseIdx_append_of_length_le (Nat.le_refl _),Nat.sub_self]
  rfl

theorem remove_at (chain : Chain h head cells) (here : cells[i]? = some c) (enough : cells.length < turns) :
    ∃ h' head', nodeRemoveFromList turns h head c = some (h',head') ∧ Chain h' head' (cells.eraseIdx i) ∧ Relinked h h' ∧
      h'.pnext c = null ∧ c ∉ cells.eraseIdx i := by
  obtain ⟨behind,ahead,rfl,rfl⟩ := split_at here
  obtain ⟨h',head',ran,chain',relinked,free⟩ := remove_chain chain enough
  rw [erase_split]
  refine ⟨h',head',ran,chain',relinked,free,?_⟩
  rw [List.mem_append,not_or]
  exact chain.foreign_split

theorem erase_map (l : List Ptr) (f : Ptr → DhcpsPool) (i : Nat) : (l.eraseIdx i).map f = (l.map f).eraseIdx i :=
  (List.eraseIdx_map ..).symm

end Places

section Add
variable {s : State} {t : Server} {turns : Nat} {fresh : Ptr}

theorem addTurn_folds (h : PoolHeap) (macaddr : Mac) (cells : List Ptr) (startIp : UInt32) :
    (foldNodes (addTurn macaddr) (cells.map fun c => (c,h.pnode c)) (startIp,false)).2 = true ∧
      addLoop macaddr (cells.map h.pnode) startIp = none ∨
    ∃ a, foldNodes (addTurn macaddr) (cells.map fun c => (c,h.pnode c)) (startIp,false) = (a,false) ∧
      addLoop macaddr (cells.map h.pnode) startIp = some a := by
  induction cells generalizing startIp with
  | nil => exact .inr ⟨startIp,rfl,rfl⟩
  | cons c rest ih =>
    simp only [List.map_cons,foldNodes,addLoop,addTurn]
    by_cases own : (h.pnode c).mac = macaddr
    · rw [if_pos own,if_pos own]
      exact .inl ⟨rfl,rfl⟩
    · rw [if_neg own,if_neg own]
      exact ih (nextIp startIp)

theorem opened_chain {h : PoolHeap} {head : Ptr} {cells : List Ptr} (chain : Chain h head cells) (free : h.Fresh fresh)
    (enough : cells.length < turns) (node : DhcpsPool) :
    ∃ h' head' cells', nodeInsertToList turns (h.alloc fresh node) head fresh = some (h',head') ∧ Chain h' head' cells' ∧
      cells'.map h'.pnode = Dhcps.nodeInsertToList node (cells.map h.pnode) := by
  obtain ⟨foreign,chain'⟩ := chain.alloc free node
  have there : (h.alloc fresh node).Node fresh := ⟨free.1,Function.update_self ..⟩
  have ends : (h.alloc fresh node).pnext fresh = null := Function.update_self ..
  have content : (h.alloc fresh node).pnode fresh = node := Function.update_self ..
  have others : cells.map (h.alloc fresh node).pnode = cells.map h.pnode := map_untouched h.pnode foreign node
  obtain ⟨h',head',cells',ran,chain'',relinked,sorted⟩ := insert_chain chain' there foreign ends enough
  rw [content,others] at sorted
  exact ⟨h',head',cells',ran,chain'',by rw [relinked.pnode,sorted]⟩

theorem add_shows (shown : Shows s t) (free : s.heap.Fresh fresh) (enough : t.plist.length < turns) (macaddr : Mac) :
    ∃ s', wifiSoftapAddDhcpsLease turns fresh s macaddr = some s' ∧ Shows s' (Dhcps.wifiSoftapAddDhcpsLease t macaddr).1 := by
  obtain ⟨⟨cells,chain,content⟩,lease,renew,time⟩ := id shown
  have few : cells.length < turns := by simpa [←content] using enough
  unfold wifiSoftapAddDhcpsLease Dhcps.wifiSoftapAddDhcpsLease
  rw [forNodes_fold chain _ _ few,lease,time,←content]
  dsimp only [Option.bind_eq_bind,Option.bind_some]
  rcases addTurn_folds s.heap macaddr cells t.dhcpsLease.startIp with ⟨met,none⟩ | ⟨a,counted,some⟩
  · rw [none,if_pos met]
    exact ⟨s,rfl,shown⟩
  · rw [some,counted]
    dsimp only
    rw [if_neg Bool.false_ne_true]
    by_cases beyond : a > t.dhcpsLease.endIp
    · rw [if_pos beyond,if_pos beyond]
      exact ⟨s,rfl,shown⟩
    · rw [if_neg beyond,if_neg beyond]
      obtain ⟨h',head',cells',ran,chain',sorted⟩ := opened_chain chain free few ⟨a,macaddr,t.dhcpsLeaseTime,.static,.online⟩
      rw [ran]
      exact ⟨_,rfl,⟨cells',chain',sorted⟩,rfl,renew,rfl⟩

end Add

section Update
variable {s : State} {t : Server} {h : PoolHeap} {head : Ptr} {cells : List Ptr} {turns : Nat} {fresh : Ptr} {bssid : Mac}
  {ip : Option UInt32} {type : DhcpsType}

def pointer (cells : List Ptr) : Option Nat → Ptr
  | none => null
  | some i => cells.getD i null

def pointers (cells : List Ptr) (l : Dhcps.Search) : Search :=
  ⟨pointer cells l.pmacNode,pointer cells l.pipNode,l.flag,l.startIp⟩

theorem pointer_next (seen rest : List Ptr) (c : Ptr) : pointer (seen ++ c :: rest) (some seen.length) = c := by
  simp [pointer]

theorem updateTurn_pointers (l : Dhcps.Search) (c : Ptr) (p : DhcpsPool) (place : pointer cells (some i) = c) :
    updateTurn bssid ip (pointers cells l) c p =
      if p.mac = bssid ∧ ip = none then .stop (pointers cells {l with pmacNode := some i,flag := true})
      else .next (pointers cells (l.turn bssid ip i p)) := by
  subst place
  unfold updateTurn Dhcps.Search.turn
  by_cases own : p.mac = bssid
  · cases ip with
    | none =>
      rw [if_pos ⟨own,rfl⟩,if_pos ⟨own,rfl⟩]
      rfl
    | some addr =>
      simp only [own,pointers,reduceCtorEq,and_false,if_true,if_false]
      split_ifs <;> rfl
  · cases ip with
    | none =>
      simp only [own,pointers,false_and,if_false]
      split_ifs <;> rfl
    | some addr =>
      simp only [own,pointers,false_and,if_false]
      split_ifs <;> rfl

theorem updateTurn_folds (h : PoolHeap) (bssid : Mac) (ip : Option UInt32) (seen rest : List Ptr) (l : Dhcps.Search) :
    foldNodes (updateTurn bssid ip) (rest.map fun c => (c,h.pnode c)) (pointers (seen ++ rest) l) =
      pointers (seen ++ rest) (updateLoop bssid ip seen.length (rest.map h.pnode) l) := by
  induction rest generalizing seen l with
  | nil => rfl
  | cons c rest ih =>
    rw [List.map_cons,List.map_cons,foldNodes,updateTurn_pointers l c _ (pointer_next seen rest c),updateLoop]
    by_cases last : (h.pnode c).mac = bssid ∧ ip = none
    · rw [if_pos last,if_pos last]
    · rw [if_neg last,if_neg last]
      have onward := ih (seen ++ [c]) (l.turn bssid ip seen.length (h.pnode c))
      simpa using onward

inductive Located (h : PoolHeap) (cells : List Ptr) (node : Option Nat) : Option (Nat × DhcpsPool) → Ptr → Prop where
  | nowhere : Located h cells node none null
  | node (here : cells[i]? = some c) (real : h.Node c) : Located h cells node (some (i,h.pnode c)) c

theorem nodeAt_located (chain : Chain h head cells) (node : Option Nat) :
    Located h cells node (nodeAt (cells.map h.pnode) node) (pointer cells node) := by
  cases node with
  | none => exact .nowhere
  | some i =>
    unfold nodeAt pointer
    dsimp only
    rw [Option.bind_some,List.getElem?_map,List.getD_eq_getElem?_getD]
    cases here : cells[i]? with
    | none => exact .nowhere
    | some c => exact .node here (chain.node (List.mem_of_getElem? here))

theorem places_apart {i j : Nat} {c d : Ptr} (chain : Chain h head cells) (here : cells[i]? = some c)
    (there : cells[j]? = some d) : d = c ↔ j = i := by
  have inside := (List.getElem?_eq_some_iff.mp there).1
  rw [←List.getElem?_inj inside chain.apart,here,there,Option.some.injEq]

theorem takenOver_chain {i j : Nat} {c d : Ptr} (chain : Chain h head cells) (here : cells[i]? = some c)
    (there : cells[j]? = some d) (other : d ≠ c) (enough : cells.length < turns) (node : DhcpsPool) :
    ∃ h₁ head' h₂, nodeRemoveFromList turns h head c = some (h₁,head') ∧ h₁.free c = some (h₁.freed c) ∧
      (h₁.freed c).store d node = some h₂ ∧ Chain h₂ head' (cells.eraseIdx i) ∧
      (cells.eraseIdx i).map h₂.pnode = Dhcps.nodeRemoveFromList ((cells.map h.pnode).set j node) i := by
  obtain ⟨h₁,head',ran,chain',relinked,_,off⟩ := remove_at chain here enough
  have real := relinked.node (chain.node (List.mem_of_getElem? here))
  have kept : d ∈ cells.eraseIdx i :=
    List.mem_eraseIdx_iff_getElem?.mpr ⟨j,fun same => other ((places_apart chain here there).mpr same),there⟩
  have there' : (h₁.freed c).Node d := (chain'.freed off).node kept
  refine ⟨h₁,head',_,ran,real.free,there'.store node,(chain'.freed off).stored d node,?_⟩
  have same : ((h₁.freed c).stored d node).pnode = (h.stored d node).pnode := by
    unfold Heap.stored Heap.freed
    rw [relinked.pnode]
  rw [same,erase_map,chain.map_stored there node]
  rfl

-- A node taken out and put back with another content, which it has in part before.
theorem moved_chain {i : Nat} {c : Ptr} (chain : Chain h head cells) (here : cells[i]? = some c)
    (enough : cells.length < turns) (part node : DhcpsPool) :
    ∃ h₁ h₂ head₂ h₃ h₄ head₄ cells₄, h.store c part = some h₁ ∧ nodeRemoveFromList turns h₁ head c = some (h₂,head₂) ∧
      h₂.store c node = some h₃ ∧ nodeInsertToList turns h₃ head₂ c = some (h₄,head₄) ∧ Chain h₄ head₄ cells₄ ∧
      cells₄.map h₄.pnode = Dhcps.nodeInsertToList node (Dhcps.nodeRemoveFromList (cells.map h.pnode) i) := by
  have real := chain.node (List.mem_of_getElem? here)
  obtain ⟨h₂,head₂,removed,chain₂,relinked,alone,off⟩ := remove_at (chain.stored c part) here enough
  have real₂ : h₂.Node c := relinked.node real
  have shorter : (cells.eraseIdx i).length < turns := by
    have fewer := List.length_eraseIdx_le cells i
    omega
  have real₃ : (h₂.stored c node).Node c := real₂
  obtain ⟨h₄,head₄,cells₄,inserted,chain₄,relinked₄,sorted⟩ := insert_chain (chain₂.stored c node) real₃ off alone shorter
  refine ⟨_,h₂,head₂,_,h₄,head₄,cells₄,real.store part,removed,real₂.store node,inserted,chain₄,?_⟩
  have own : (h₂.stored c node).pnode c = node := Function.update_self ..
  have others : (cells.eraseIdx i).map (h₂.stored c node).pnode = (cells.eraseIdx i).map h.pnode := by
    have after : (cells.eraseIdx i).map (h₂.stored c node).pnode = (cells.eraseIdx i).map h₂.pnode :=
      map_untouched h₂.pnode off node
    rw [after,relinked.pnode]
    exact map_untouched h.pnode off part
  rw [relinked₄.pnode,sorted,own,others,erase_map]
  rfl

theorem stored_chain {j : Nat} {d : Ptr} (chain : Chain h head cells) (there : cells[j]? = some d) (node : DhcpsPool) :
    ∃ h', h.store d node = some h' ∧ Chain h' head cells ∧ cells.map h'.pnode = (cells.map h.pnode).set j node :=
  ⟨_,(chain.node (List.mem_of_getElem? there)).store node,chain.stored d node,chain.map_stored there node⟩

theorem search_shows (chain : Chain s.heap s.plist cells) (content : cells.map s.heap.pnode = t.plist)
    (few : cells.length < turns) (bssid : Mac) (ip : Option UInt32) (startIp : UInt32) :
    let l := updateLoop bssid ip 0 t.plist ⟨none,none,false,startIp⟩
    ∃ l', forNodes (updateTurn bssid ip) s.heap turns s.plist ⟨null,null,false,startIp⟩ = some l' ∧
      Located s.heap cells l.pmacNode (nodeAt t.plist l.pmacNode) l'.pmacNode ∧
      Located s.heap cells l.pipNode (nodeAt t.plist l.pipNode) l'.pipNode ∧ l'.flag = l.flag ∧ l'.startIp = l.startIp := by
  have begun : (⟨null,null,false,startIp⟩ : Search) = pointers ([] ++ cells) ⟨none,none,false,startIp⟩ := rfl
  intro l
  refine ⟨pointers cells l,?_,?_,?_,rfl,rfl⟩
  · rw [forNodes_fold chain _ _ few,begun,updateTurn_folds s.heap bssid ip [] cells,content]
    rfl
  · rw [←content]
    exact nodeAt_located chain l.pmacNode
  · rw [←content]
    exact nodeAt_located chain l.pipNode

theorem assign_shows (shown : Shows s t) (free : s.heap.Fresh fresh) (enough : t.plist.length < turns) (bssid : Mac)
    (ip : Option UInt32) (type : DhcpsType) :
    ∃ s', assignIp turns fresh s bssid ip type = some (s',(Dhcps.assignIp t bssid ip type).2) ∧
      Shows s' (Dhcps.assignIp t bssid ip type).1 := by
  obtain ⟨⟨cells,chain,content⟩,lease,renew,time⟩ := id shown
  have few : cells.length < turns := by simpa [←content] using enough
  have still : Shows ⟨t.dhcpsLease,false,t.dhcpsLeaseTime,s.heap,s.plist⟩ {t with renew := false} := ⟨shown.list,rfl,rfl,rfl⟩
  obtain ⟨l',ran,mine,held,flag,due⟩ := search_shows chain content few bssid ip t.dhcpsLease.startIp
  unfold assignIp Dhcps.assignIp
  dsimp only
  rw [lease,ran]
  dsimp only [Option.bind_eq_bind,Option.bind_some]
  generalize updateLoop bssid ip 0 t.plist ⟨none,none,false,t.dhcpsLease.startIp⟩ = l at mine held flag due ⊢
  rw [flag,due,time]
  by_cases full : ip = none ∧ l.flag = false ∧ l.startIp > t.dhcpsLease.endIp
  · rw [if_pos full,if_pos full]
    exact ⟨_,rfl,still⟩
  rw [if_neg full,if_neg full]
  generalize l'.pmacNode = pmac at mine ⊢
  generalize l'.pipNode = pip at held ⊢
  generalize nodeAt t.plist l.pmacNode = own at mine ⊢
  generalize nodeAt t.plist l.pipNode = there at held ⊢
  cases mine with
  | nowhere =>
    rw [if_neg fun no => no rfl]
    cases held with
    | nowhere =>
      rw [if_neg fun no => no rfl]
      dsimp only
      by_cases beyond : ip.getD l.startIp > t.dhcpsLease.endIp
      · rw [if_pos beyond,if_pos beyond]
        exact ⟨_,rfl,still⟩
      · rw [if_neg beyond,if_neg beyond]
        obtain ⟨h',head',cells',ran,chain',sorted⟩ := opened_chain chain free few
          ⟨ip.getD l.startIp,bssid,t.dhcpsLeaseTime,type,.online⟩
        rw [ran]
        rw [content] at sorted
        exact ⟨_,rfl,⟨cells',chain',sorted⟩,rfl,rfl,rfl⟩
    | node there real =>
      rw [if_pos real.1,real.node]
      dsimp only [Option.bind_some]
      split_ifs with busy
      · exact ⟨_,rfl,still⟩
      · obtain ⟨h',ran,chain',written⟩ := stored_chain chain there
          ⟨(s.heap.pnode pip).ip,bssid,t.dhcpsLeaseTime,type,.online⟩
        rw [ran]
        rw [content] at written
        exact ⟨_,rfl,⟨cells,chain',written⟩,rfl,rfl,rfl⟩
  | node here real =>
    rw [if_pos real.1]
    cases held with
    | nowhere =>
      rw [if_neg fun no => no rfl,real.node]
      dsimp only [Option.bind_some]
      obtain ⟨h₁,h₂,head₂,h₃,h₄,head₄,cells₄,stored,removed,written,inserted,chain₄,sorted⟩ := moved_chain chain here few
        {s.heap.pnode pmac with ip := ip.getD l.startIp}
        ⟨ip.getD l.startIp,(s.heap.pnode pmac).mac,t.dhcpsLeaseTime,type,.online⟩
      rw [stored,Option.bind_some,removed]
      dsimp only [Option.bind_some]
      rw [written,Option.bind_some,inserted]
      rw [content] at sorted
      exact ⟨_,rfl,⟨cells₄,chain₄,sorted⟩,rfl,rfl,rfl⟩
    | node there real' =>
      rw [if_pos real'.1,real'.node]
      dsimp only [Option.bind_some]
      by_cases other : pip ≠ pmac
      · rw [if_pos other,if_pos fun same => other ((places_apart chain here there).mpr same)]
        split_ifs with busy
        · exact ⟨_,rfl,still⟩
        · obtain ⟨h₁,head',h₂,removed,freed,written,chain₂,left⟩ := takenOver_chain chain here there other few
            ⟨(s.heap.pnode pip).ip,bssid,t.dhcpsLeaseTime,type,.online⟩
          rw [removed]
          dsimp only [Option.bind_some]
          rw [freed,Option.bind_some,written]
          rw [content] at left
          exact ⟨_,rfl,⟨_,chain₂,left⟩,rfl,rfl,rfl⟩
      · rw [if_neg other,if_neg fun apart => other fun same => apart ((places_apart chain here there).mp same)]
        obtain ⟨h',ran,chain',written⟩ := stored_chain chain there
          ⟨(s.heap.pnode pip).ip,(s.heap.pnode pip).mac,t.dhcpsLeaseTime,.dynamic,.online⟩
        rw [ran]
        rw [content] at written
        exact ⟨_,rfl,⟨cells,chain',written⟩,rfl,rfl,rfl⟩

theorem update_shows (shown : Shows s t) (free : s.heap.Fresh fresh) (enough : t.plist.length < turns) (bssid : Option Mac)
    (ip : Option UInt32) :
    ∃ s', wifiSoftapDhcpsClientUpdate turns fresh s bssid ip = some (s',(Dhcps.wifiSoftapDhcpsClientUpdate t bssid ip).2) ∧
      Shows s' (Dhcps.wifiSoftapDhcpsClientUpdate t bssid ip).1 := by
  unfold wifiSoftapDhcpsClientUpdate Dhcps.wifiSoftapDhcpsClientUpdate
  cases bssid with
  | none => exact ⟨s,rfl,shown⟩
  | some bssid =>
    cases ip with
    | none => exact assign_shows shown free enough bssid none .dynamic
    | some ip =>
      dsimp only
      split_ifs with broadcast any
      · exact ⟨s,rfl,shown⟩
      · exact assign_shows shown free enough bssid none .dynamic
      · exact assign_shows shown free enough bssid (some ip) .static

end Update

section Leave
variable {s : State} {t : Server} {h : PoolHeap} {head : Ptr} {cells : List Ptr} {turns : Nat}

inductive Left (h : PoolHeap) (bssid : Mac) (ip : UInt32) (force : Bool) (cells : List Ptr) : Ptr → List DhcpsPool → Prop where
  | nobody : Left h bssid ip force cells null (cells.map h.pnode)
  | removed (here : cells[i]? = some c) (goes : (h.pnode c).type = .static ∨ force) :
      Left h bssid ip force cells c ((cells.map h.pnode).eraseIdx i)
  | offline (here : cells[i]? = some c) (stays : ¬ ((h.pnode c).type = .static ∨ force)) :
      Left h bssid ip force cells c ((cells.map h.pnode).set i {h.pnode c with state := .offline})

theorem Left.behind {bssid : Mac} {ip : UInt32} {force : Bool} {plist : List DhcpsPool} {p : Ptr}
    (left : Left h bssid ip force cells p plist) (c : Ptr) : Left h bssid ip force (c :: cells) p (h.pnode c :: plist) := by
  cases left with
  | nobody => exact .nobody
  | @removed i p here goes =>
    have there : (c :: cells)[i+1]? = some p := here
    exact .removed there goes
  | @offline i p here stays =>
    have there : (c :: cells)[i+1]? = some p := here
    exact .offline there stays

theorem leaveTurn_folds (h : PoolHeap) (bssid : Mac) (ip : UInt32) (force : Bool) (cells : List Ptr) :
    Left h bssid ip force cells (foldNodes (leaveTurn bssid ip) (cells.map fun c => (c,h.pnode c)) null)
      (leaveLoop bssid ip force (cells.map h.pnode)) := by
  induction cells with
  | nil => exact .nobody
  | cons c rest ih =>
    have here : (c :: rest)[0]? = some c := rfl
    simp only [List.map_cons,foldNodes,leaveLoop,leaveTurn]
    by_cases mine : (h.pnode c).mac = bssid
    · by_cases own : (h.pnode c).ip = ip
      · rw [if_pos mine,if_pos own,if_pos ⟨mine,own⟩]
        split_ifs with goes
        · exact .removed here goes
        · exact .offline here goes
      · rw [if_pos mine,if_neg own,if_neg fun both => own both.2]
        exact ih.behind c
    · rw [if_neg mine,if_neg fun both => mine both.1]
      exact ih.behind c

theorem leave_shows (shown : Shows s t) (enough : t.plist.length < turns) (bssid : Option Mac) (ip : Option UInt32)
    (force : Bool) :
    ∃ s', wifiSoftapDhcpsClientLeave turns s bssid ip force = some s' ∧
      Shows s' (Dhcps.wifiSoftapDhcpsClientLeave t bssid ip force) := by
  obtain ⟨⟨cells,chain,content⟩,lease,renew,time⟩ := id shown
  have few : cells.length < turns := by simpa [←content] using enough
  cases bssid with
  | none => exact ⟨s,rfl,shown⟩
  | some bssid =>
    cases ip with
    | none => exact ⟨s,rfl,shown⟩
    | some ip =>
      have left := leaveTurn_folds s.heap bssid ip force cells
      unfold wifiSoftapDhcpsClientLeave Dhcps.wifiSoftapDhcpsClientLeave
      dsimp only
      rw [forNodes_fold chain _ _ few]
      dsimp only [Option.bind_eq_bind,Option.bind_some]
      rw [content] at left
      generalize foldNodes (leaveTurn bssid ip) (cells.map fun c => (c,s.heap.pnode c)) null = p at left ⊢
      generalize leaveLoop bssid ip force t.plist = plist at left ⊢
      cases left with
      | nobody =>
        rw [if_pos rfl]
        exact ⟨s,rfl,⟨cells,chain,rfl⟩,lease,renew,time⟩
      | removed here goes =>
        have real := chain.node (List.mem_of_getElem? here)
        obtain ⟨h',head',ran,chain',relinked,_,off⟩ := remove_at chain here few
        have real' := relinked.node real
        rw [if_neg real.1,real.node,Option.bind_some,if_pos goes,ran]
        dsimp only [Option.bind_some]
        rw [real'.free]
        refine ⟨_,rfl,⟨_,chain'.freed off,?_⟩,lease,renew,time⟩
        rw [Heap.freed_pnode,relinked.pnode,erase_map]
      | offline here stays =>
        have real := chain.node (List.mem_of_getElem? here)
        obtain ⟨h',ran,chain',written⟩ := stored_chain chain here {s.heap.pnode p with state := .offline}
        rw [if_neg real.1,real.node,Option.bind_some,if_neg stays,ran]
        exact ⟨_,rfl,⟨cells,chain',written⟩,lease,renew,time⟩

end Leave

end NonosLinkLayer.Dhcps.Nodes
