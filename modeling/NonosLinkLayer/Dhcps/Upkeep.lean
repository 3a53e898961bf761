import NonosLinkLayer.Dhcps.Structure

namespace NonosLinkLayer.Dhcps.Nodes
open HeapList LinkPool

section Kill
variable {h : PoolHeap} {head : Ptr} {behind ahead cells : List Ptr} {turns m : Nat} {l : Oldest}

theorem split_pair {a b : Ptr} (here : cells[m]? = some a) (there : cells[m+1]? = some b) :
    ∃ behind ahead, cells = behind ++ a :: b :: ahead ∧ behind.length = m := by
  obtain ⟨behind,ahead,rfl,rfl⟩ := split_at here
  rw [List.getElem?_append_right (by omega),Nat.add_sub_cancel_left] at there
  cases ahead with
  | nil => cases there
  | cons c ahead =>
    cases there
    exact ⟨behind,ahead,rfl,rfl⟩

structure Found (cells : List Ptr) (m : Nat) (l : Oldest) : Prop where
  before : cells[m]? = some l.minpre
  there : cells[m+1]? = some l.minp

theorem oldestLoop_chain (chain : Chain h head (behind ++ ahead)) (last : behind.getLast? = some l.pre)
    (found : Found (behind ++ ahead) m l) (enough : ahead.length < turns) :
    ∃ l' m', oldestLoop h turns (ahead.headD null) l = some l' ∧ (behind ++ ahead).getLast? = some l'.pre ∧
      Found (behind ++ ahead) m' l' ∧
      Dhcps.oldestLoop (m+1) (h.pnode l.minp) behind.length (ahead.map h.pnode) = m' + 1 := by
  obtain ⟨turns,rfl⟩ := Nat.exists_eq_succ_of_ne_zero (Nat.ne_zero_of_lt enough)
  induction ahead generalizing behind l m turns with
  | nil => exact ⟨l,m,rfl,by rw [List.append_nil]; exact last,found,rfl⟩
  | cons c rest ih =>
    have here : h.Node c := chain.node (by simp)
    have oldest : h.Node l.minp := chain.node (List.mem_of_getElem? found.there)
    have onward : behind ++ c :: rest = (behind ++ [c]) ++ rest := by simp
    obtain ⟨turns,rfl⟩ := Nat.exists_eq_succ_of_ne_zero (Nat.ne_zero_of_lt (Nat.lt_of_succ_lt_succ enough))
    unfold oldestLoop
    rw [List.headD_cons,if_neg here.1,here.node,oldest.node,here.next,chain.next_ahead,List.map_cons,Dhcps.oldestLoop]
    dsimp only [Option.bind_eq_bind,Option.bind_some]
    have place : behind.length = (behind.length - 1) + 1 := by
      cases behind with
      | nil => cases last
      | cons b behind => rfl
    rw [onward] at chain found ⊢
    have length : (behind ++ [c]).length = behind.length + 1 := by simp
    by_cases less : (h.pnode c).leaseTimer < (h.pnode l.minp).leaseTimer
    · rw [if_pos less,if_pos less]
      have before : (behind ++ [c] ++ rest)[behind.length - 1]? = some l.pre := by
        rw [List.append_assoc,List.getElem?_append_left (by omega),←List.getLast?_eq_getElem?,last]
      have there : (behind ++ [c] ++ rest)[behind.length - 1 + 1]? = some c := by
        rw [←place]
        simp
      have next := @ih (behind ++ [c]) (behind.length - 1) ⟨c,l.pre,c⟩ chain (by simp) ⟨before,there⟩ turns
        (Nat.lt_of_succ_lt_succ enough)
      rw [length,←place] at next
      exact next
    · rw [if_neg less,if_neg less]
      have next := @ih (behind ++ [c]) m ⟨c,l.minpre,l.minp⟩ chain (by simp) ⟨found.before,found.there⟩ turns
        (Nat.lt_of_succ_lt_succ enough)
      rw [length] at next
      exact next

theorem kill_list {p first last : DhcpsPool} {rest : List DhcpsPool}
    (ends : (first :: p :: rest)[rest.length + 1]? = some last) :
    Dhcps.killOldestDhcpsPool (first :: p :: rest) = some (Dhcps.nodeRemoveFromList
      ((first :: p :: rest).set (rest.length + 1) {last with state := .offline}) (Dhcps.oldestLoop 1 p 1 (p :: rest))) := by
  unfold Dhcps.killOldestDhcpsPool
  dsimp only
  rw [List.modify_eq_set_getElem?,ends]
  rfl

-- The node behind `minpre` is left out, after a node was written, which can be the same one.
theorem freed_chain {i : Nat} {d : Ptr} (chain : Chain h head cells) (found : Found cells m l) (here : cells[i]? = some d)
    (node : DhcpsPool) :
    Chain (((h.linked l.minpre (h.pnext l.minp)).stored d node).freed l.minp) head (cells.eraseIdx (m+1)) ∧
      (cells.eraseIdx (m+1)).map (((h.linked l.minpre (h.pnext l.minp)).stored d node).freed l.minp).pnode =
        Dhcps.nodeRemoveFromList ((cells.map h.pnode).set i node) (m+1) := by
  constructor
  · obtain ⟨behind,ahead,split,length⟩ := split_pair found.before found.there
    subst split
    have place : m + 1 = (behind ++ [l.minpre]).length := by rw [List.length_append,length]; rfl
    have shorter : (behind ++ l.minpre :: l.minp :: ahead).eraseIdx (m+1) = behind ++ l.minpre :: ahead := by
      rw [List.append_cons,place,erase_split,List.append_assoc]
      rfl
    rw [shorter]
    exact (chain.skip.stored d node).freed chain.foreign_pair
  · have same : (((h.linked l.minpre (h.pnext l.minp)).stored d node).freed l.minp).pnode = (h.stored d node).pnode := rfl
    rw [same,erase_map,chain.map_stored here node]
    rfl

theorem kill_chain (chain : Chain h head cells) (enough : cells.length < turns)
    (killed : Dhcps.killOldestDhcpsPool (cells.map h.pnode) = some plist) :
    ∃ h' cells', killOldestDhcpsPool turns h head = some h' ∧ Chain h' head cells' ∧ cells'.map h'.pnode = plist := by
  match cells with
  | [] => cases killed
  | [_] => cases killed
  | a :: b :: rest =>
    have start : head = a := chain.start
    subst start
    have first : h.Node head := chain.node (by simp)
    have leads : h.pnext head = b := chain.tail.start
    have whole : Chain h head ([head] ++ b :: rest) := chain
    have few : (b :: rest).length < turns := Nat.lt_of_succ_lt enough
    have begun : Found ([head] ++ b :: rest) 0 ⟨head,head,b⟩ := ⟨rfl,rfl⟩
    obtain ⟨l,m,looked,last,found,oldest⟩ := oldestLoop_chain whole rfl begun few
    have ends : (head :: b :: rest)[rest.length + 1]? = some l.pre := by
      rw [←last,List.getLast?_eq_getElem?]
      rfl
    have listed : (h.pnode head :: h.pnode b :: rest.map h.pnode)[(rest.map h.pnode).length + 1]? = some (h.pnode l.pre) := by
      have mapped : ((head :: b :: rest).map h.pnode)[rest.length + 1]? = some (h.pnode l.pre) := by
        rw [List.getElem?_map,ends]
        rfl
      rwa [←List.length_map h.pnode] at mapped
    have same := (kill_list listed).symm.trans killed
    have min := chain.node (List.mem_of_getElem? found.there)
    have pre := chain.node (List.mem_of_getElem? found.before)
    have end₁ : (h.linked l.minpre (h.pnext l.minp)).Node l.pre := chain.node (List.mem_of_getElem? ends)
    have min₂ : ((h.linked l.minpre (h.pnext l.minp)).stored l.pre {h.pnode l.pre with state := .offline}).Node l.minp := min
    obtain ⟨chain',left⟩ := freed_chain chain found ends {h.pnode l.pre with state := .offline}
    unfold killOldestDhcpsPool
    rw [first.next,leads]
    dsimp only [Option.bind_eq_bind,Option.bind_some]
    rw [List.headD_cons] at looked
    rw [looked,Option.bind_some,min.next,Option.bind_some,pre.link,Option.bind_some,end₁.node,Option.bind_some,end₁.store,
      Option.bind_some,Heap.linked_pnode,min₂.free]
    refine ⟨_,_,rfl,chain',left.trans ?_⟩
    cases same
    rw [List.length_map,←oldest]
    rfl

end Kill

section Timer
variable {s : State} {t : Server} {h : PoolHeap} {head : Ptr} {kept rest cells : List Ptr} {turns left : Nat} {n : UInt8}

-- The nodes of `kept` have had their turn and stay. The induction follows those of `rest`.
theorem coarseLoop_chain (chain : Chain h head (kept ++ rest)) (enough : (kept ++ rest).length < turns)
    (last : rest.length < left) :
    ∃ h' head' cells', coarseLoop turns left (rest.headD null) h head n =
        some (h',head',(Dhcps.coarseLoop (rest.map h.pnode) n).2) ∧ Chain h' head' cells' ∧
      cells'.map h'.pnode = kept.map h.pnode ++ (Dhcps.coarseLoop (rest.map h.pnode) n).1 := by
  obtain ⟨left,rfl⟩ := Nat.exists_eq_succ_of_ne_zero (Nat.ne_zero_of_lt last)
  induction rest generalizing h head kept left n with
  | nil =>
    rw [List.append_nil] at chain
    exact ⟨h,head,kept,rfl,chain,by simp [Dhcps.coarseLoop]⟩
  | cons c rest ih =>
    have here : h.Node c := chain.node (by simp)
    obtain ⟨left,rfl⟩ := Nat.exists_eq_succ_of_ne_zero (Nat.ne_zero_of_lt (Nat.lt_of_succ_lt_succ last))
    obtain ⟨offKept,offRest⟩ := chain.foreign_split
    have others : ∀ {cells : List Ptr}, c ∉ cells → cells.map (h.stored c (h.pnode c).tick).pnode = cells.map h.pnode :=
      fun off => map_untouched h.pnode off _
    have written : (h.stored c (h.pnode c).tick).pnode c = (h.pnode c).tick := Function.update_self ..
    have chain₁ := chain.stored c (h.pnode c).tick
    have here₁ : (h.stored c (h.pnode c).tick).Node c := here
    unfold coarseLoop
    rw [List.headD_cons,if_neg here.1,here.node,List.map_cons,Dhcps.coarseLoop]
    dsimp only [Option.bind_eq_bind,Option.bind_some]
    rw [here.store,Option.bind_some,here₁.next,Option.bind_some,chain₁.next_ahead]
    by_cases spent : (h.pnode c).tick.leaseTimer = 0
    · rw [if_pos spent,if_pos spent]
      obtain ⟨h₂,head₂,removed,chain₂,relinked,_⟩ := remove_chain chain₁ enough
      have here₂ := relinked.node here₁
      have off : c ∉ kept ++ rest := by
        rw [List.mem_append,not_or]
        exact ⟨offKept,offRest⟩
      have fewer : (kept ++ rest).length < turns := by
        rw [List.length_append,List.length_cons] at enough
        rw [List.length_append]
        omega
      rw [removed]
      dsimp only [Option.bind_some]
      rw [here₂.free,Option.bind_some]
      have onward := ih (n:=n) (chain₂.freed off) fewer left (Nat.lt_of_succ_lt_succ last)
      rw [Heap.freed_pnode,relinked.pnode,others offRest,others offKept] at onward
      exact onward
    · rw [if_neg spent,if_neg spent]
      rw [List.append_cons] at chain₁ enough
      have onward := ih (n:=n+1) chain₁ enough left (Nat.lt_of_succ_lt_succ last)
      rw [others offRest,List.map_append,List.map_singleton,written,others offKept,List.append_assoc] at onward
      exact onward

theorem timer_shows (shown : Shows s t) (enough : t.plist.length < turns) (ticked : Dhcps.dhcpsCoarseTmr t = some next) :
    ∃ s', dhcpsCoarseTmr turns s = some s' ∧ Shows s' next := by
  obtain ⟨⟨cells,chain,content⟩,lease,renew,time⟩ := shown
  have few : cells.length < turns := by simpa [←content] using enough
  have whole : Chain s.heap s.plist ([] ++ cells) := chain
  obtain ⟨h₁,head₁,cells₁,ran,chain₁,left⟩ := coarseLoop_chain (n:=0) whole few few
  rw [List.map_nil,List.nil_append,content] at left
  rw [content,←chain.start] at ran
  have shorter : cells₁.length ≤ t.plist.length := by
    have fewer := (coarse_owners t.plist 0).length_le
    unfold owners at fewer
    rwa [List.length_map,List.length_map,←left,List.length_map] at fewer
  unfold dhcpsCoarseTmr
  unfold Dhcps.dhcpsCoarseTmr at ticked
  rw [ran]
  dsimp only [Option.bind_eq_bind,Option.bind_some] at ticked ⊢
  by_cases many : (Dhcps.coarseLoop t.plist 0).2 ≥ maxStationNum
  · rw [if_pos many] at ticked ⊢
    obtain ⟨plist,killed,same⟩ := Option.map_eq_some_iff.mp ticked
    rw [←left] at killed
    obtain ⟨h₂,cells₂,ran₂,chain₂,left₂⟩ := kill_chain chain₁ (Nat.lt_of_le_of_lt shorter enough) killed
    cases same
    rw [ran₂]
    exact ⟨_,rfl,⟨cells₂,chain₂,left₂⟩,lease,renew,time⟩
  · rw [if_neg many] at ticked ⊢
    cases Option.some.inj ticked
    exact ⟨_,rfl,⟨cells₁,chain₁,left⟩,lease,renew,time⟩

end Timer

section Stop
variable {s : State} {t : Server} {h : PoolHeap} {head : Ptr} {cells : List Ptr} {turns left : Nat}

-- Every turn takes the first node out, so the pointer to the next one is the pointer to the list again.
theorem stopLoop_chain (chain : Chain h head cells) (enough : cells.length < turns) (last : cells.length < left) :
    ∃ h', stopLoop turns left head h head = some (h',null) := by
  obtain ⟨left,rfl⟩ := Nat.exists_eq_succ_of_ne_zero (Nat.ne_zero_of_lt last)
  induction cells generalizing h head left with
  | nil =>
    rw [chain.start]
    exact ⟨h,rfl⟩
  | cons c rest ih =>
    obtain ⟨left,rfl⟩ := Nat.exists_eq_succ_of_ne_zero (Nat.ne_zero_of_lt (Nat.lt_of_succ_lt_succ last))
    have start : head = c := chain.start
    subst start
    have first : Chain h head ([] ++ head :: rest) := chain
    have here : h.Node head := chain.node (List.mem_cons_self ..)
    obtain ⟨h₁,head₁,removed,chain₁,relinked,_⟩ := remove_chain first enough
    have here₁ := relinked.node here
    have off : head ∉ rest := first.foreign_split.2
    have next : h.pnext head = head₁ := chain.tail.start.trans chain₁.start.symm
    unfold stopLoop
    rw [if_neg here.1,here.next,next]
    dsimp only [Option.bind_eq_bind,Option.bind_some]
    rw [removed]
    dsimp only [Option.bind_some]
    rw [here₁.free,Option.bind_some]
    exact ih (chain₁.freed off) (Nat.lt_of_succ_lt enough) left (Nat.lt_of_succ_lt_succ last)

theorem stop_shows (shown : Shows s t) (enough : t.plist.length < turns) :
    ∃ s', dhcpsStop turns s = some s' ∧ Shows s' {t with plist := []} := by
  obtain ⟨⟨cells,chain,content⟩,lease,renew,time⟩ := shown
  have few : cells.length < turns := by simpa [←content] using enough
  obtain ⟨h',ran⟩ := stopLoop_chain chain few few
  unfold dhcpsStop
  rw [ran]
  exact ⟨_,rfl,⟨[],Chain.empty h',rfl⟩,lease,renew,time⟩

end Stop

end NonosLinkLayer.Dhcps.Nodes
