import NonosLinkLayer.Dhcps.Order

namespace NonosLinkLayer.Dhcps.Nodes
open HeapList LinkPool

structure Stored (h : PoolHeap) (head : Ptr) (cells : List Ptr) : Prop where
  chain : Chain h head cells
  all : ∀ p, h.live p = true → p ∈ cells

structure Loose (h : PoolHeap) (head c : Ptr) (cells : List Ptr) : Prop where
  chain : Chain h head cells
  node : h.Node c
  off : c ∉ cells
  alone : h.pnext c = null
  all : ∀ p, h.live p = true → p = c ∨ p ∈ cells

section Nodes
variable {h h' : PoolHeap} {head head' c p : Ptr} {cells cells' others : List Ptr} {turns left : Nat} {a : DhcpsPool}

theorem all_listed (apart : cells.Nodup) (inside : ∀ c ∈ cells, c ∈ others) (length : others.length ≤ cells.length)
    (member : p ∈ others) : p ∈ cells :=
  ((List.subperm_of_subset apart inside).perm_of_length_le length).mem_iff.mpr member

theorem Stored.store (stored : Stored h head cells) (run : h.store p a = some h') : Stored h' head cells := by
  rw [(Heap.store_some run).2]
  exact ⟨stored.chain.stored p a,stored.all⟩

theorem Loose.store (loose : Loose h head c cells) (run : h.store p a = some h') : Loose h' head c cells := by
  rw [(Heap.store_some run).2]
  exact ⟨loose.chain.stored p a,loose.node,loose.off,loose.alone,loose.all⟩

theorem Stored.alloc (stored : Stored h head cells) (fresh : h.Fresh c) (a : DhcpsPool) : Loose (h.alloc c a) head c cells := by
  obtain ⟨off,chain⟩ := stored.chain.alloc fresh a
  refine ⟨chain,⟨fresh.1,Function.update_self ..⟩,off,Function.update_self ..,?_⟩
  intro p live
  by_cases here : p = c
  · exact .inl here
  · exact .inr (stored.all p ((Function.update_of_ne here _ _).symm.trans live))

theorem Loose.insert (loose : Loose h head c cells) (enough : cells.length < turns)
    (run : nodeInsertToList turns h head c = some (h',head')) : ∃ cells', Stored h' head' cells' ∧ cells'.length = cells.length + 1 := by
  obtain ⟨k,front,cells',ran,chain,relinked,sorted⟩ := insert_chain loose.chain loose.node loose.off loose.alone enough
  cases ran.symm.trans run
  have length : cells'.length = cells.length + 1 := by
    have both := congrArg List.length sorted
    rw [(insert_perm _ _).length_eq] at both
    simpa using both
  refine ⟨cells',⟨chain,?_⟩,length⟩
  have inside : ∀ x ∈ cells', x ∈ c :: cells := by
    intro x member
    have live := chain.live x member
    rw [relinked.live] at live
    exact List.mem_cons.mpr (loose.all x live)
  intro p live
  rw [relinked.live] at live
  exact all_listed chain.apart inside (by simp [length]) (List.mem_cons.mpr (loose.all p live))

theorem unlink_live (run : unlink h p c = some h') : h'.live = h.live := by
  unfold unlink at run
  obtain ⟨q,_,run⟩ := Option.bind_eq_some_iff.mp run
  split at run
  · obtain ⟨d,_,run⟩ := Option.bind_eq_some_iff.mp run
    obtain ⟨h₁,turned,run⟩ := Option.bind_eq_some_iff.mp run
    rw [(Heap.link_some run).2,(Heap.link_some turned).2]
    rfl
  · cases run
    rfl

theorem removeLoop_live (run : removeLoop c turns p h = some h') : h'.live = h.live := by
  induction turns generalizing p h with
  | zero => cases run
  | succ turns ih =>
    unfold removeLoop at run
    split at run
    · cases run
      rfl
    · obtain ⟨h₁,unlinked,run⟩ := Option.bind_eq_some_iff.mp run
      obtain ⟨q,_,run⟩ := Option.bind_eq_some_iff.mp run
      exact (ih run).trans (unlink_live unlinked)

theorem remove_live (run : nodeRemoveFromList turns h head c = some (h',head')) : h'.live = h.live := by
  unfold nodeRemoveFromList at run
  split at run
  · cases run
    rfl
  · split at run
    · obtain ⟨q,_,run⟩ := Option.bind_eq_some_iff.mp run
      obtain ⟨h₁,turned,run⟩ := Option.bind_eq_some_iff.mp run
      cases run
      rw [(Heap.link_some turned).2]
      rfl
    · obtain ⟨h₁,ran,run⟩ := Option.bind_eq_some_iff.mp run
      cases run
      exact removeLoop_live ran

theorem Stored.remove (stored : Stored h head cells) (real : h.Node c) (enough : cells.length < turns)
    (run : nodeRemoveFromList turns h head c = some (h',head')) :
    ∃ cells', Loose h' head' c cells' ∧ cells.length = cells'.length + 1 := by
  obtain ⟨behind,ahead,rfl⟩ := List.append_of_mem (stored.all c real.2)
  obtain ⟨k,front,ran,chain,relinked,alone⟩ := remove_chain stored.chain enough
  cases ran.symm.trans run
  refine ⟨behind ++ ahead,⟨chain,relinked.node real,stored.chain.foreign_rest,alone,?_⟩,?_⟩
  · intro p live
    rw [relinked.live] at live
    simpa [or_left_comm] using stored.all p live
  · simp only [List.length_append,List.length_cons]
    omega

theorem Loose.free (loose : Loose h head c cells) (run : h.free c = some h') : Stored h' head cells := by
  obtain ⟨_,rfl⟩ := Heap.free_some run
  refine ⟨loose.chain.freed loose.off,?_⟩
  intro p live
  by_cases here : p = c
  · rw [here] at live
    simp [Heap.freed] at live
  · exact (loose.all p (by simpa [Heap.freed,here] using live)).resolve_left here

end Nodes

section Operations
variable {s s' : State} {h h' : PoolHeap} {head head' pnode fresh : Ptr} {cells : List Ptr} {turns left : Nat} {num num' : UInt8}

theorem add_stored {macaddr : Mac} (stored : Stored s.heap s.plist cells) (free : s.heap.Fresh fresh) (enough : cells.length < turns)
    (run : wifiSoftapAddDhcpsLease turns fresh s macaddr = some s') : ∃ cells', Stored s'.heap s'.plist cells' := by
  unfold wifiSoftapAddDhcpsLease at run
  obtain ⟨l,_,run⟩ := Option.bind_eq_some_iff.mp run
  split_ifs at run
  · cases run
    exact ⟨cells,stored⟩
  · cases run
    exact ⟨cells,stored⟩
  · obtain ⟨⟨h,plist⟩,inserted,run⟩ := Option.bind_eq_some_iff.mp run
    cases run
    obtain ⟨cells',after,_⟩ := (stored.alloc free _).insert enough inserted
    exact ⟨cells',after⟩

theorem leave_stored {bssid : Option Mac} {ip : Option UInt32} {force : Bool} (stored : Stored s.heap s.plist cells)
    (enough : cells.length < turns) (run : wifiSoftapDhcpsClientLeave turns s bssid ip force = some s') :
    ∃ cells', Stored s'.heap s'.plist cells' := by
  unfold wifiSoftapDhcpsClientLeave at run
  split at run
  · obtain ⟨p,_,run⟩ := Option.bind_eq_some_iff.mp run
    split at run
    · cases run
      exact ⟨cells,stored⟩
    · obtain ⟨pool,there,run⟩ := Option.bind_eq_some_iff.mp run
      split at run
      · obtain ⟨⟨h,plist⟩,removed,run⟩ := Option.bind_eq_some_iff.mp run
        obtain ⟨k,freed,run⟩ := Option.bind_eq_some_iff.mp run
        cases run
        obtain ⟨cells',loose,_⟩ := stored.remove (Heap.node_some there).1 enough removed
        exact ⟨cells',loose.free freed⟩
      · obtain ⟨k,written,run⟩ := Option.bind_eq_some_iff.mp run
        cases run
        exact ⟨cells,stored.store written⟩
  · cases run
    exact ⟨cells,stored⟩

theorem assign_stored {bssid : Mac} {ip : Option UInt32} {type : DhcpsType} {addr : UInt32} (stored : Stored s.heap s.plist cells)
    (free : s.heap.Fresh fresh) (enough : cells.length < turns) (run : assignIp turns fresh s bssid ip type = some (s',addr)) :
    ∃ cells', Stored s'.heap s'.plist cells' := by
  unfold assignIp at run
  obtain ⟨l,_,run⟩ := Option.bind_eq_some_iff.mp run
  dsimp only at run
  split at run
  · cases run
    exact ⟨cells,stored⟩
  · split at run
    · split at run
      · obtain ⟨pool,there,run⟩ := Option.bind_eq_some_iff.mp run
        split at run
        · split at run
          · cases run
            exact ⟨cells,stored⟩
          · obtain ⟨⟨h,plist⟩,removed,run⟩ := Option.bind_eq_some_iff.mp run
            obtain ⟨h₁,freed,run⟩ := Option.bind_eq_some_iff.mp run
            obtain ⟨h₂,written,run⟩ := Option.bind_eq_some_iff.mp run
            cases run
            obtain ⟨real,_⟩ := Heap.free_some freed
            obtain ⟨cells',loose,_⟩ := stored.remove ⟨real.1,remove_live removed ▸ real.2⟩ enough removed
            exact ⟨cells',(loose.free freed).store written⟩
        · obtain ⟨h,written,run⟩ := Option.bind_eq_some_iff.mp run
          cases run
          exact ⟨cells,stored.store written⟩
      -- the node is freed nowhere on the way from its old place to its new one
      · obtain ⟨pool,there,run⟩ := Option.bind_eq_some_iff.mp run
        obtain ⟨h₁,readdressed,run⟩ := Option.bind_eq_some_iff.mp run
        obtain ⟨⟨h₂,plist₂⟩,removed,run⟩ := Option.bind_eq_some_iff.mp run
        obtain ⟨h₃,written,run⟩ := Option.bind_eq_some_iff.mp run
        obtain ⟨⟨h₄,plist₄⟩,inserted,run⟩ := Option.bind_eq_some_iff.mp run
        cases run
        obtain ⟨real,same⟩ := Heap.store_some readdressed
        have real₁ : h₁.Node l.pmacNode := by
          rw [same]
          exact real
        obtain ⟨cells₂,loose,length⟩ := (stored.store readdressed).remove real₁ enough removed
        obtain ⟨cells₄,after,_⟩ := (loose.store written).insert (by omega) inserted
        exact ⟨cells₄,after⟩
    · split at run
      · obtain ⟨pool,there,run⟩ := Option.bind_eq_some_iff.mp run
        split at run
        · cases run
          exact ⟨cells,stored⟩
        · obtain ⟨h,written,run⟩ := Option.bind_eq_some_iff.mp run
          cases run
          exact ⟨cells,stored.store written⟩
      · split at run
        · cases run
          exact ⟨cells,stored⟩
        · obtain ⟨⟨h,plist⟩,inserted,run⟩ := Option.bind_eq_some_iff.mp run
          cases run
          obtain ⟨cells',after,_⟩ := (stored.alloc free _).insert enough inserted
          exact ⟨cells',after⟩

theorem update_stored {bssid : Option Mac} {ip : Option UInt32} {addr : UInt32} (stored : Stored s.heap s.plist cells)
    (free : s.heap.Fresh fresh) (enough : cells.length < turns)
    (run : wifiSoftapDhcpsClientUpdate turns fresh s bssid ip = some (s',addr)) : ∃ cells', Stored s'.heap s'.plist cells' := by
  unfold wifiSoftapDhcpsClientUpdate at run
  split at run
  · cases run
    exact ⟨cells,stored⟩
  · split at run
    · exact assign_stored stored free enough run
    · split at run
      · cases run
        exact ⟨cells,stored⟩
      · split at run
        · exact assign_stored stored free enough run
        · exact assign_stored stored free enough run

-- Every node that is freed was taken out first, so the loop keeps the list whole.
theorem coarse_stored {h h' : PoolHeap} {head head' p : Ptr} {n n' : UInt8} {left : Nat} (stored : Stored h head cells)
    (enough : cells.length < turns) (run : coarseLoop turns left p h head n = some (h',head',n')) :
    ∃ cells', Stored h' head' cells' ∧ cells'.length ≤ cells.length := by
  induction left generalizing p h head n cells with
  | zero => cases run
  | succ left ih =>
    unfold coarseLoop at run
    split at run
    · cases run
      exact ⟨cells,stored,Nat.le_refl _⟩
    · obtain ⟨pool,there,run⟩ := Option.bind_eq_some_iff.mp run
      obtain ⟨h₁,ticked,run⟩ := Option.bind_eq_some_iff.mp run
      obtain ⟨q,leads,run⟩ := Option.bind_eq_some_iff.mp run
      have stored₁ := stored.store ticked
      split at run
      · obtain ⟨⟨h₂,head₂⟩,removed,run⟩ := Option.bind_eq_some_iff.mp run
        obtain ⟨h₃,freed,run⟩ := Option.bind_eq_some_iff.mp run
        obtain ⟨cells₂,loose,length⟩ := stored₁.remove (Heap.next_some leads).1 enough removed
        obtain ⟨cells',after,fewer⟩ := ih (loose.free freed) (by omega) run
        exact ⟨cells',after,by omega⟩
      · exact ih stored₁ enough run

-- A list of one node ends at the null pointer, which the code follows.
theorem second_there {p : Ptr} {l : Oldest} (chain : Chain s.heap s.plist cells) (leads : s.heap.next s.plist = some p)
    (ran : oldestLoop s.heap turns p ⟨s.plist,s.plist,p⟩ = some l) (real : s.heap.Node l.minp) :
    ∃ rest, cells = s.plist :: p :: rest := by
  match cells with
  | [] => exact absurd chain.start (Heap.next_some leads).1.1
  | [c] =>
    have start : s.plist = c := chain.start
    subst start
    have ends : p = null := (Heap.next_some leads).2.trans chain.tail.start
    subst ends
    cases turns with
    | zero => cases ran
    | succ turns =>
      cases ran
      exact absurd rfl real.1
  | c :: d :: rest =>
    have start : s.plist = c := chain.start
    subst start
    have next : p = d := (Heap.next_some leads).2.trans chain.tail.start
    exact ⟨rest,by rw [next]⟩

theorem kill_stored (stored : Stored s.heap s.plist cells) (enough : cells.length < turns)
    (run : killOldestDhcpsPool turns s.heap s.plist = some h') : ∃ cells', Stored h' s.plist cells' := by
  unfold killOldestDhcpsPool at run
  obtain ⟨p,leads,run⟩ := Option.bind_eq_some_iff.mp run
  obtain ⟨l,looked,run⟩ := Option.bind_eq_some_iff.mp run
  obtain ⟨q,onward,run⟩ := Option.bind_eq_some_iff.mp run
  obtain ⟨h₁,skipped,run⟩ := Option.bind_eq_some_iff.mp run
  obtain ⟨pool,there,run⟩ := Option.bind_eq_some_iff.mp run
  obtain ⟨h₂,written,freed⟩ := Option.bind_eq_some_iff.mp run
  obtain ⟨min,same⟩ := Heap.next_some onward
  subst same
  obtain ⟨rest,split⟩ := second_there stored.chain leads looked min
  subst split
  have begun : Found ([s.plist] ++ p :: rest) 0 ⟨s.plist,s.plist,p⟩ := ⟨rfl,rfl⟩
  obtain ⟨l',m,again,last,found,_⟩ := oldestLoop_chain stored.chain rfl begun (Nat.lt_of_succ_lt enough)
  cases looked.symm.trans again
  rw [List.getLast?_eq_getElem?] at last
  rw [(Heap.free_some freed).2,(Heap.store_some written).2,(Heap.link_some skipped).2]
  refine ⟨_,(freed_chain stored.chain found last _).1,?_⟩
  obtain ⟨behind,ahead,split,length⟩ := split_pair found.before found.there
  intro x live
  have other : x ≠ l.minp := by
    intro here
    rw [here] at live
    simp [Heap.freed] at live
  have old : s.heap.live x = true := by simpa [Heap.freed,Heap.stored,other] using live
  have member := stored.all x old
  have place : m + 1 = (behind ++ [l.minpre]).length := by rw [List.length_append,length]; rfl
  change s.plist :: p :: rest = _ at split
  rw [split,List.append_cons] at member ⊢
  rw [place,erase_split]
  simpa [other] using member

theorem timer_stored (stored : Stored s.heap s.plist cells) (enough : cells.length < turns)
    (run : dhcpsCoarseTmr turns s = some s') : ∃ cells', Stored s'.heap s'.plist cells' := by
  unfold dhcpsCoarseTmr at run
  obtain ⟨⟨h,plist,num⟩,aged,run⟩ := Option.bind_eq_some_iff.mp run
  obtain ⟨cells₁,stored₁,fewer⟩ := coarse_stored stored enough aged
  dsimp only at run
  split at run
  · obtain ⟨h₂,killed,run⟩ := Option.bind_eq_some_iff.mp run
    cases run
    exact kill_stored (s:={s with heap := h,plist := plist}) stored₁ (Nat.lt_of_le_of_lt fewer enough) killed
  · cases run
    exact ⟨cells₁,stored₁⟩

theorem stop_stored {h h' : PoolHeap} {head head' p : Ptr} {left : Nat} (stored : Stored h head cells)
    (enough : cells.length < turns) (run : stopLoop turns left p h head = some (h',head')) : ∃ cells', Stored h' head' cells' := by
  induction left generalizing p h head cells with
  | zero => cases run
  | succ left ih =>
    unfold stopLoop at run
    split at run
    · cases run
      exact ⟨cells,stored⟩
    · obtain ⟨q,leads,run⟩ := Option.bind_eq_some_iff.mp run
      obtain ⟨⟨h₁,head₁⟩,removed,run⟩ := Option.bind_eq_some_iff.mp run
      obtain ⟨h₂,freed,run⟩ := Option.bind_eq_some_iff.mp run
      obtain ⟨cells₁,loose,length⟩ := stored.remove (Heap.next_some leads).1 enough removed
      exact ih (loose.free freed) (by omega) run

theorem perform_stored (stored : Stored s.heap s.plist cells) (free : s.heap.Fresh fresh) (enough : cells.length < turns)
    (command : Command) (ran : perform turns fresh s command = some s') : ∃ cells', Stored s'.heap s'.plist cells' := by
  cases command with
  | stop =>
    obtain ⟨⟨h,plist⟩,went,ran⟩ := Option.bind_eq_some_iff.mp ran
    cases ran
    exact stop_stored stored enough went
  | event event =>
    cases event with
    | update bssid ip =>
      obtain ⟨⟨next,addr⟩,went,rfl⟩ := Option.map_eq_some_iff.mp ran
      exact update_stored stored free enough went
    | leave bssid ip force => exact leave_stored stored enough ran
    | add macaddr => exact add_stored stored free enough ran
    | timer => exact timer_stored stored enough ran

def AllStored : State → List Command → Prop
  | s,[] => ∃ cells, Stored s.heap s.plist cells
  | s,command :: rest => ∃ cells, Stored s.heap s.plist cells ∧ ∀ fresh turns, s.heap.Fresh fresh → cells.length < turns →
      ∃ next, perform turns fresh s command = some next ∧
        (command = .stop → ∀ p, next.heap.live p = false) ∧ AllStored next rest

theorem Stored.nothing {h : PoolHeap} {p : Ptr} (stored : Stored h null cells) : h.live p = false := by
  have none_there := stored.chain.nil
  subst none_there
  cases live : h.live p with
  | false => rfl
  | true => exact absurd (stored.all p live) List.not_mem_nil

theorem run_stored {t : Server} (stored : Stored s.heap s.plist cells) (shown : Shows s t) (ordered : Ordered t.plist)
    (single : Single t) (commands : List Command) : AllStored s commands := by
  induction commands generalizing s t cells with
  | nil => exact ⟨cells,stored⟩
  | cons command rest ih =>
    obtain ⟨next,obeyed,ordered',single'⟩ := obey_kept ordered single command
    refine ⟨cells,stored,fun fresh turns free enough => ?_⟩
    have length : t.plist.length = cells.length := by
      obtain ⟨⟨others,chain,content⟩,_⟩ := shown
      rw [←content,List.length_map,chain.unique stored.chain]
    obtain ⟨s',ran,shown'⟩ := perform_shows shown free (length ▸ enough) command obeyed
    obtain ⟨cells',stored'⟩ := perform_stored stored free enough command ran
    refine ⟨s',ran,?_,ih stored' shown' ordered' single'⟩
    intro stop p
    subst stop
    cases obeyed
    obtain ⟨⟨none_left,chain,content⟩,_⟩ := shown'
    have empty : s'.plist = null := by
      rw [chain.start,List.map_eq_nil_iff.mp content]
      rfl
    rw [empty] at stored'
    exact stored'.nothing

-- The server neither loses a node nor keeps one it has given back.
theorem pool_allocated (lease : DhcpsLease) (renew : Bool) (leaseTime : UInt32) (heap : PoolHeap)
    (clear : ∀ p, heap.live p = false) (commands : List Command) : AllStored ⟨lease,renew,leaseTime,heap,null⟩ commands := by
  have shown : Shows ⟨lease,renew,leaseTime,heap,null⟩ ⟨lease,[],renew,leaseTime⟩ :=
    ⟨⟨[],Chain.empty heap,rfl⟩,rfl,rfl,rfl⟩
  have stored : Stored heap null [] := by
    refine ⟨Chain.empty heap,fun p live => ?_⟩
    rw [clear p] at live
    cases live
  exact run_stored stored shown List.Pairwise.nil List.nodup_nil commands

-- Two clients come, one of them leaves, and the service ends.
theorem pool_allocated_two :
    AllStored ⟨⟨true,0x0104a8c0,0x6404a8c0⟩,false,120,⟨fun _ => null,fun _ => ⟨0,phone,0,.static,.online⟩,fun _ => false⟩,null⟩
      [.event (.update phone none),.event (.update laptop none),.event (.leave phone (some 0x0104a8c0) true),.stop] :=
  pool_allocated _ _ _ _ (fun _ => rfl) _

end Operations

end NonosLinkLayer.Dhcps.Nodes
