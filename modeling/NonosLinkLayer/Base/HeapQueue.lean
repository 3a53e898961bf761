import NonosLinkLayer.Base.HeapList
import NonosLinkLayer.Base.Turns

-- Putting a node at the end of a linked list and taking one out, as loops that
-- follow the links. Without enough turns a loop gives no result.
namespace HeapList
open Turns
variable {α : Type}

def lastNode (h : Heap α) : Nat → Ptr → Option Ptr
  | 0,_ => none
  | turns+1,p => do
    let q ← h.next p
    if q = null then some p else lastNode h turns q

def appendNode (turns : Nat) (h : Heap α) (head p : Ptr) : Option (Heap α × Ptr) := do
  let (h,head) ←
    if head = null then some (h,p)
    else do
      let last ← lastNode h turns head
      let h ← h.link last p
      some (h,head)
  let h ← h.link p null
  some (h,head)

def deleteLoop (d : Ptr) : Nat → Heap α → Ptr → Option (Heap α)
  | 0,_,_ => none
  | turns+1,h,p =>
    if p = null then some h
    else do
      let q ← h.next p
      let h ←
        if q = d then do
          let onward ← h.next d
          h.link p onward
        else some h
      let q ← h.next p
      deleteLoop d turns h q

def deleteNode (turns : Nat) (h : Heap α) (head d : Ptr) : Option (Heap α × Ptr) :=
  if head = null then some (h,null)
  else if head = d then do
    let q ← h.next head
    some (h,q)
  else do
    let h ← deleteLoop d turns h head
    some (h,head)

def countNodes (h : Heap α) : Nat → Ptr → Option Nat
  | 0,_ => none
  | turns+1,p =>
    if p = null then some 0
    else do
      let q ← h.next p
      let n ← countNodes h turns q
      some (n + 1)

variable {h : Heap α} {head p c d : Ptr} {cells behind ahead front : List Ptr} {turns : Nat}

namespace Chain

theorem next_head (chain : Chain h head (c :: ahead)) : h.pnext c = ahead.headD null := by
  have whole : Chain h head ([] ++ c :: ahead) := chain
  exact whole.next_ahead

theorem lastNode (chain : Chain h p (behind ++ [c])) (enough : behind.length < turns) : lastNode h turns p = some c := by
  induction behind generalizing p turns with
  | nil =>
    obtain ⟨turns,rfl⟩ := Nat.exists_eq_succ_of_ne_zero (Nat.ne_zero_of_lt enough)
    have ends : h.pnext c = null := chain.next_head
    rw [chain.start,List.nil_append,List.headD_cons,HeapList.lastNode,(chain.node (List.mem_cons_self ..)).next,ends]
    rfl
  | cons b rest ih =>
    obtain ⟨turns,rfl⟩ := Nat.exists_eq_succ_of_ne_zero (Nat.ne_zero_of_lt enough)
    have further := ih chain.tail (Nat.lt_of_succ_lt_succ enough)
    have there : h.pnext b ≠ null := by
      intro ends
      have onward := chain.tail
      rw [ends] at onward
      exact List.append_ne_nil_of_right_ne_nil _ (List.cons_ne_nil _ _) onward.nil
    rw [chain.start,List.cons_append,List.headD_cons,HeapList.lastNode,(chain.node (List.mem_cons_self ..)).next]
    exact (if_neg there).trans further

theorem appendNode (chain : Chain h head cells) (node : h.Node p) (foreign : p ∉ cells) :
    ∃ next, Ends (fun turns => appendNode turns h head p) (next,(cells ++ [p]).headD null) ∧
      Chain next ((cells ++ [p]).headD null) (cells ++ [p]) ∧ next.pnode = h.pnode ∧ next.live = h.live := by
  rcases List.eq_nil_or_concat cells with rfl | ⟨behind,c,rfl⟩
  · have head_null : head = null := chain.start
    have pushed := chain.push node foreign
    rw [head_null] at pushed
    refine ⟨h.linked p null,.always fun turns => ?_,pushed,rfl,rfl⟩
    unfold HeapList.appendNode
    rw [if_pos head_null]
    dsimp only [Option.bind_eq_bind,Option.bind_some]
    rw [node.link]
    rfl
  · rw [List.concat_eq_append] at chain foreign ⊢
    have there : head ≠ null := by
      rintro rfl
      exact List.append_ne_nil_of_right_ne_nil _ (List.cons_ne_nil _ _) chain.nil
    have member : c ∈ behind ++ [c] := List.mem_append_right _ (List.mem_cons_self ..)
    have apart : c ≠ p := by
      rintro rfl
      exact foreign member
    have ended := chain.linked foreign null
    have leads : (h.linked p null).pnext p = List.headD [] null := Function.update_self ..
    have spliced := ended.splice node foreign leads
    have swapped : (h.linked p null).linked c p = (h.linked c p).linked p null := by
      unfold Heap.linked
      dsimp only
      rw [Function.update_comm apart]
    rw [swapped] at spliced
    have same : head = (behind ++ [c] ++ [p]).headD null := by
      rw [chain.start]
      cases behind <;> rfl
    rw [←same,←List.append_cons]
    refine ⟨_,.enough fun turns (enough : behind.length < turns) => ?_,spliced,rfl,rfl⟩
    have still : (h.linked c p).Node p := node
    unfold HeapList.appendNode
    rw [if_neg there,chain.lastNode enough]
    dsimp only [Option.bind_eq_bind,Option.bind_some]
    rw [(chain.node member).link]
    dsimp only [Option.bind_some]
    rw [still.link]
    rfl

theorem deleteLoop_missing (chain : Chain h p cells) (foreign : d ∉ cells) (real : d ≠ null) (enough : cells.length < turns) :
    deleteLoop d turns h p = some h := by
  induction cells generalizing p turns with
  | nil =>
    obtain ⟨turns,rfl⟩ := Nat.exists_eq_succ_of_ne_zero (Nat.ne_zero_of_lt enough)
    exact if_pos chain.start
  | cons c rest ih =>
    obtain ⟨turns,rfl⟩ := Nat.exists_eq_succ_of_ne_zero (Nat.ne_zero_of_lt enough)
    have node := chain.node (List.mem_cons_self ..)
    rw [List.mem_cons,not_or] at foreign
    have other : h.pnext c ≠ d := by
      rw [chain.tail.start]
      cases rest with
      | nil => exact Ne.symm real
      | cons x _ => exact fun same => foreign.2 (same ▸ List.mem_cons_self ..)
    have further := ih chain.tail foreign.2 (Nat.lt_of_succ_lt_succ enough)
    rw [chain.start,List.headD_cons,deleteLoop,if_neg node.1,node.next]
    dsimp only [Option.bind_eq_bind,Option.bind_some]
    rw [if_neg other,node.next]
    exact further

theorem deleteLoop_found (chain : Chain h p (front ++ c :: d :: ahead)) (enough : front.length + ahead.length + 1 < turns) :
    deleteLoop d turns h p = some (h.linked c (h.pnext d)) := by
  induction front generalizing p turns with
  | nil =>
    obtain ⟨turns,rfl⟩ := Nat.exists_eq_succ_of_ne_zero (Nat.ne_zero_of_lt enough)
    have node := chain.node (List.mem_cons_self ..)
    have found : h.pnext c = d := chain.next_head
    have gone := chain.tail.node (List.mem_cons_self ..)
    have apart := (List.nodup_cons.mp chain.tail.apart).1
    have offC : c ∉ ahead := fun member => (List.nodup_cons.mp chain.apart).1 (List.mem_cons_of_mem _ member)
    have rest := (chain.tail.tail.linked offC (h.pnext d)).deleteLoop_missing apart gone.1
      (by rw [List.length_nil] at enough; omega : ahead.length < turns)
    have turned : (h.linked c (h.pnext d)).pnext c = h.pnext d := Function.update_self ..
    have still : (h.linked c (h.pnext d)).Node c := node
    rw [chain.start,List.nil_append,List.headD_cons,deleteLoop,if_neg node.1,node.next]
    dsimp only [Option.bind_eq_bind,Option.bind_some]
    rw [if_pos found,gone.next]
    dsimp only [Option.bind_some]
    rw [node.link]
    dsimp only [Option.bind_some]
    rw [still.next,turned]
    exact rest
  | cons b rest ih =>
    obtain ⟨turns,rfl⟩ := Nat.exists_eq_succ_of_ne_zero (Nat.ne_zero_of_lt enough)
    have node := chain.node (List.mem_cons_self ..)
    rw [List.length_cons] at enough
    have further := ih chain.tail (by omega : rest.length + ahead.length + 1 < turns)
    have other : h.pnext b ≠ d := by
      rw [chain.tail.start]
      have apart := chain.tail.apart
      cases rest with
      | nil => exact fun same => (List.nodup_cons.mp apart).1 (same ▸ List.mem_cons_self ..)
      | cons x xs =>
        refine fun same => (List.nodup_cons.mp apart).1 ?_
        have here : x = d := same
        rw [here]
        exact List.mem_append_right _ (List.mem_cons_of_mem _ (List.mem_cons_self ..))
    rw [chain.start,List.cons_append,List.headD_cons,deleteLoop,if_neg node.1,node.next]
    dsimp only [Option.bind_eq_bind,Option.bind_some]
    rw [if_neg other,node.next]
    exact further

theorem deleteNode (chain : Chain h head (behind ++ d :: ahead)) :
    ∃ next, Ends (fun turns => deleteNode turns h head d) (next,(behind ++ ahead).headD null) ∧
      Chain next ((behind ++ ahead).headD null) (behind ++ ahead) ∧ next.pnode = h.pnode ∧ next.live = h.live := by
  rcases List.eq_nil_or_concat behind with rfl | ⟨front,c,rfl⟩
  · have node := chain.node (List.mem_cons_self ..)
    have here : head = d := chain.start
    have onward : h.pnext d = ahead.headD null := chain.next_head
    have rest := chain.tail
    rw [onward] at rest
    refine ⟨h,.always fun turns => ?_,rest,rfl,rfl⟩
    unfold HeapList.deleteNode
    rw [here,if_neg node.1,if_pos rfl,node.next,onward]
    rfl
  · rw [List.concat_eq_append] at chain ⊢
    rw [←List.append_cons] at chain ⊢
    have foreign := chain.foreign_pair
    have same : head = (front ++ c :: ahead).headD null := by
      rw [chain.start]
      cases front <;> rfl
    have other : head ≠ d := by
      rw [same]
      intro equal
      cases front with
      | nil => exact foreign (equal ▸ List.mem_cons_self ..)
      | cons x xs => exact foreign (equal ▸ List.mem_cons_self ..)
    have there : head ≠ null := by
      rintro rfl
      exact List.append_ne_nil_of_right_ne_nil _ (List.cons_ne_nil _ _) chain.nil
    rw [←same]
    refine ⟨_,.enough fun turns (enough : front.length + ahead.length + 1 < turns) => ?_,chain.skip,rfl,rfl⟩
    unfold HeapList.deleteNode
    rw [if_neg there,if_neg other,chain.deleteLoop_found enough]
    rfl

theorem deleteNode_missing (chain : Chain h head cells) (foreign : d ∉ cells) (real : d ≠ null) :
    Ends (fun turns => HeapList.deleteNode turns h head d) (h,head) := by
  refine .enough fun turns (enough : cells.length < turns) => ?_
  unfold HeapList.deleteNode
  cases cells with
  | nil =>
    have none : head = null := chain.start
    rw [if_pos none,none]
  | cons c rest =>
    have here : head = c := chain.start
    have node := chain.node (List.mem_cons_self ..)
    rw [List.mem_cons,not_or] at foreign
    have loop := chain.deleteLoop_missing (by rw [List.mem_cons,not_or]; exact foreign) real enough
    rw [here] at loop ⊢
    rw [if_neg node.1,if_neg (Ne.symm foreign.1),loop]
    rfl

theorem countNodes_enough (chain : Chain h p cells) (enough : cells.length < turns) :
    countNodes h turns p = some cells.length := by
  induction cells generalizing p turns with
  | nil =>
    obtain ⟨turns,rfl⟩ := Nat.exists_eq_succ_of_ne_zero (Nat.ne_zero_of_lt enough)
    exact if_pos chain.start
  | cons c rest ih =>
    obtain ⟨turns,rfl⟩ := Nat.exists_eq_succ_of_ne_zero (Nat.ne_zero_of_lt enough)
    have node := chain.node (List.mem_cons_self ..)
    have further := ih chain.tail (Nat.lt_of_succ_lt_succ enough)
    rw [chain.start,List.headD_cons,HeapList.countNodes,if_neg node.1,node.next]
    dsimp only [Option.bind_eq_bind,Option.bind_some]
    rw [further]
    rfl

theorem countNodes (chain : Chain h p cells) : Ends (fun turns => countNodes h turns p) cells.length :=
  .enough fun _ enough => chain.countNodes_enough enough

end Chain

end HeapList
