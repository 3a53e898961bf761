import NonosLinkLayer.Dhcps.Nodes

namespace NonosLinkLayer.Dhcps.Nodes
open HeapList LinkPool

structure Relinked (h h' : PoolHeap) : Prop where
  pnode : h'.pnode = h.pnode
  live : h'.live = h.live

theorem Relinked.refl (h : PoolHeap) : Relinked h h := ⟨rfl,rfl⟩

theorem Relinked.trans {h h₁ h₂ : PoolHeap} (one : Relinked h h₁) (two : Relinked h₁ h₂) : Relinked h h₂ :=
  ⟨two.pnode.trans one.pnode,two.live.trans one.live⟩

theorem Relinked.node {h h' : PoolHeap} (relinked : Relinked h h') (real : h.Node p) : h'.Node p :=
  ⟨real.1,by rw [relinked.live]; exact real.2⟩

theorem linked_relinked (h : PoolHeap) (p q : Ptr) : Relinked h (h.linked p q) := ⟨rfl,rfl⟩

section Insert
variable {h : PoolHeap} {head c p : Ptr} {behind ahead cells : List Ptr} {turns : Nat}

-- The induction follows the nodes the loop still has in front of it.
theorem insertLoop_chain (chain : Chain h head (behind ++ c :: ahead)) (node : h.Node p) (foreign : p ∉ behind ++ c :: ahead)
    (free : h.pnext p = null) (enough : ahead.length < turns) :
    ∃ h' ahead', insertLoop p turns c h = some h' ∧ Chain h' head (behind ++ c :: ahead') ∧ Relinked h h' ∧
      ahead'.map h.pnode = Dhcps.nodeInsertToList (h.pnode p) (ahead.map h.pnode) := by
  have here : h.Node c := chain.node (by simp)
  obtain ⟨turns,rfl⟩ := Nat.exists_eq_succ_of_ne_zero (Nat.ne_zero_of_lt enough)
  unfold insertLoop
  rw [here.next,chain.next_ahead]
  dsimp only [Option.bind_eq_bind,Option.bind_some]
  induction ahead generalizing behind c turns with
  | nil =>
    rw [List.headD_nil,if_pos rfl]
    exact ⟨_,[p],here.link p,chain.splice node foreign free,linked_relinked h c p,rfl⟩
  | cons q rest ih =>
    have nextNode : h.Node q := chain.node (by simp)
    rw [List.headD_cons,if_neg nextNode.1,node.node,nextNode.node]
    dsimp only [Option.bind_some]
    rw [List.map_cons,Dhcps.nodeInsertToList]
    by_cases less : (h.pnode p).ip < (h.pnode q).ip
    · have turned : (h.linked p q).pnext p = q := Function.update_self ..
      rw [if_pos less,if_pos less,node.link]
      refine ⟨_,p :: q :: rest,?_,(chain.linked foreign q).splice node foreign turned,
        (linked_relinked h p q).trans (linked_relinked _ c p),rfl⟩
      exact Heap.Node.link (h:=h.linked p q) here p
    · have onward : behind ++ c :: q :: rest = (behind ++ [c]) ++ q :: rest := by simp
      rw [if_neg less,if_neg less]
      rw [onward] at chain foreign
      obtain ⟨turns,rfl⟩ := Nat.exists_eq_succ_of_ne_zero (Nat.ne_zero_of_lt (Nat.lt_of_succ_lt_succ enough))
      obtain ⟨h',ahead',ran,chain',relinked,sorted⟩ := ih chain foreign nextNode turns (by simpa using enough)
      refine ⟨h',q :: ahead',?_,by simpa using chain',relinked,by rw [List.map_cons,sorted]⟩
      unfold insertLoop
      rw [nextNode.next,chain.next_ahead]
      exact ran

theorem insert_chain (chain : Chain h head cells) (node : h.Node p) (foreign : p ∉ cells) (free : h.pnext p = null)
    (enough : cells.length < turns) :
    ∃ h' head' cells', nodeInsertToList turns h head p = some (h',head') ∧ Chain h' head' cells' ∧ Relinked h h' ∧
      cells'.map h.pnode = Dhcps.nodeInsertToList (h.pnode p) (cells.map h.pnode) := by
  unfold nodeInsertToList
  rw [chain.start]
  cases cells with
  | nil =>
    rw [List.headD_nil,if_pos rfl]
    have alone : Chain h p [p] := ⟨⟨rfl,node.1,free⟩,List.nodup_singleton p,by simpa using node.2⟩
    exact ⟨h,p,[p],rfl,alone,.refl h,rfl⟩
  | cons c rest =>
    have here : h.Node c := chain.node (by simp)
    have start : head = c := chain.start
    rw [List.headD_cons,if_neg here.1,node.node,here.node,List.map_cons,Dhcps.nodeInsertToList]
    dsimp only [Option.bind_eq_bind,Option.bind_some]
    by_cases less : (h.pnode p).ip < (h.pnode c).ip
    · rw [if_pos less,if_pos less,node.link]
      rw [start] at chain
      exact ⟨_,p,p :: c :: rest,rfl,chain.push node foreign,linked_relinked h p c,rfl⟩
    · rw [if_neg less,if_neg less]
      have first : Chain h head ([] ++ c :: rest) := chain
      obtain ⟨h',ahead',ran,chain',relinked,sorted⟩ := insertLoop_chain first node foreign free (Nat.lt_of_succ_lt enough)
      rw [ran]
      rw [start] at chain'
      exact ⟨h',c,c :: ahead',rfl,chain',relinked,by rw [List.map_cons,sorted]⟩

end Insert

section Remove
variable {h : PoolHeap} {head c d p : Ptr} {behind mid ahead cells : List Ptr} {turns : Nat}

theorem removeLoop_absent (chain : Chain h p cells) (absent : d ∉ cells) (real : d ≠ null) (enough : cells.length < turns) :
    removeLoop d turns p h = some h := by
  induction cells generalizing p turns with
  | nil =>
    obtain ⟨turns,rfl⟩ := Nat.exists_eq_succ_of_ne_zero (Nat.ne_zero_of_lt enough)
    rw [chain.start]
    rfl
  | cons c rest ih =>
    obtain ⟨turns,rfl⟩ := Nat.exists_eq_succ_of_ne_zero (Nat.ne_zero_of_lt enough)
    have here := chain.node (List.mem_cons_self ..)
    have tail := chain.tail
    have start : p = c := chain.start
    subst start
    have other : h.pnext p ≠ d := by
      rw [tail.start]
      cases rest with
      | nil => exact Ne.symm real
      | cons q rest =>
        rintro rfl
        exact absent (by simp)
    unfold removeLoop unlink
    rw [if_neg here.1,here.next]
    dsimp only [Option.bind_eq_bind,Option.bind_some]
    rw [if_neg other]
    dsimp only [Option.bind_some]
    rw [here.next]
    exact ih tail (fun member => absent (List.mem_cons_of_mem _ member)) (by simpa using enough)

theorem unlink_chain (chain : Chain h head (behind ++ c :: d :: ahead)) :
    ∃ h', unlink h c d = some h' ∧ Chain h' head (behind ++ c :: ahead) ∧ Relinked h h' ∧ h'.pnext d = null ∧
      d ∉ behind ++ c :: ahead := by
  have here : h.Node c := chain.node (by simp)
  have there : h.Node d := chain.node (by simp)
  have off := chain.foreign_pair
  refine ⟨(h.linked c (h.pnext d)).linked d null,?_,chain.skip.linked off null,
    (linked_relinked h c _).trans (linked_relinked _ d null),Function.update_self ..,off⟩
  unfold unlink
  rw [here.next,chain.next_ahead,List.headD_cons,there.next]
  dsimp only [Option.bind_eq_bind,Option.bind_some]
  rw [if_pos rfl,here.link]
  exact Heap.Node.link (h:=h.linked c (h.pnext d)) there null

theorem removeLoop_chain (chain : Chain h head (behind ++ c :: (mid ++ d :: ahead)))
    (enough : (mid ++ d :: ahead).length < turns) :
    ∃ h', removeLoop d turns c h = some h' ∧ Chain h' head (behind ++ c :: (mid ++ ahead)) ∧ Relinked h h' ∧
      h'.pnext d = null := by
  have here : h.Node c := chain.node (by simp)
  have there : h.Node d := chain.node (by simp)
  obtain ⟨turns,rfl⟩ := Nat.exists_eq_succ_of_ne_zero (Nat.ne_zero_of_lt enough)
  unfold removeLoop
  rw [if_neg here.1]
  induction mid generalizing behind c turns with
  | nil =>
    obtain ⟨h',unlinked,chain',relinked,free,off⟩ := unlink_chain chain
    have again : h'.Node c := chain'.node (by simp)
    have absent : d ∉ ahead := fun member => off (by simp [member])
    rw [List.nil_append,unlinked]
    dsimp only [Option.bind_eq_bind,Option.bind_some]
    rw [again.next,chain'.next_ahead]
    refine ⟨h',?_,chain',relinked,free⟩
    have onward : behind ++ c :: ahead = (behind ++ [c]) ++ ahead := by simp
    rw [onward] at chain'
    exact removeLoop_absent chain'.suffix absent there.1 (Nat.lt_of_succ_lt_succ enough)
  | cons q mid ih =>
    have onward : behind ++ c :: (q :: mid ++ d :: ahead) = (behind ++ [c]) ++ q :: (mid ++ d :: ahead) := by simp
    have nextNode : h.Node q := chain.node (by simp)
    have nextPlace : h.pnext c = q := chain.next_ahead
    rw [onward] at chain
    have other : q ≠ d := by
      rintro rfl
      exact chain.foreign_split.2 (by simp)
    obtain ⟨turns,rfl⟩ := Nat.exists_eq_succ_of_ne_zero (Nat.ne_zero_of_lt (Nat.lt_of_succ_lt_succ enough))
    obtain ⟨h',ran,chain',relinked,free⟩ := ih chain nextNode turns (by simpa using enough)
    refine ⟨h',?_,by simpa using chain',relinked,free⟩
    unfold unlink
    rw [here.next,nextPlace]
    dsimp only [Option.bind_eq_bind,Option.bind_some]
    rw [if_neg other]
    dsimp only [Option.bind_some]
    rw [here.next,nextPlace]
    dsimp only [Option.bind_some]
    unfold removeLoop
    rw [if_neg nextNode.1]
    exact ran

theorem remove_chain (chain : Chain h head (behind ++ d :: ahead)) (enough : (behind ++ d :: ahead).length < turns) :
    ∃ h' head', nodeRemoveFromList turns h head d = some (h',head') ∧ Chain h' head' (behind ++ ahead) ∧ Relinked h h' ∧
      h'.pnext d = null := by
  have there : h.Node d := chain.node (by simp)
  unfold nodeRemoveFromList
  cases behind with
  | nil =>
    have start : head = d := chain.start
    have absent : d ∉ ahead := chain.foreign_split.2
    subst start
    rw [if_neg there.1,if_pos rfl,there.next,there.link]
    exact ⟨_,_,rfl,chain.tail.linked absent null,linked_relinked h head null,Function.update_self ..⟩
  | cons c behind =>
    have start : head = c := chain.start
    have here : h.Node c := chain.node (by simp)
    have other : c ≠ d := by
      rintro rfl
      exact chain.foreign_split.1 (by simp)
    subst start
    have first : Chain h head ([] ++ head :: (behind ++ d :: ahead)) := chain
    obtain ⟨h',ran,chain',relinked,free⟩ := removeLoop_chain first (Nat.lt_of_succ_lt enough)
    rw [if_neg here.1,if_neg other,ran]
    exact ⟨h',head,rfl,chain',relinked,free⟩

end Remove

end NonosLinkLayer.Dhcps.Nodes
