import NonosLinkLayer.Base.LinkPool

namespace HeapList
open LinkPool
variable {α σ : Type}

abbrev Ptr := Nat
def null : Ptr := 0

-- Memory for the nodes of a linked list. A node is only there while it is
-- allocated, and nothing is at the null pointer.
structure Heap (α : Type) where
  pnext : Ptr → Ptr
  pnode : Ptr → α
  live : Ptr → Bool

namespace Heap

def Node (h : Heap α) (p : Ptr) : Prop := p ≠ null ∧ h.live p = true

instance (h : Heap α) (p : Ptr) : Decidable (h.Node p) := inferInstanceAs (Decidable (p ≠ null ∧ h.live p = true))

def linked (h : Heap α) (p q : Ptr) : Heap α := {h with pnext := Function.update h.pnext p q}
def stored (h : Heap α) (p : Ptr) (a : α) : Heap α := {h with pnode := Function.update h.pnode p a}
def freed (h : Heap α) (p : Ptr) : Heap α := {h with live := Function.update h.live p false}

-- The accesses, which fail where there is no node.
def next (h : Heap α) (p : Ptr) : Option Ptr := if h.Node p then some (h.pnext p) else none
def node (h : Heap α) (p : Ptr) : Option α := if h.Node p then some (h.pnode p) else none
def link (h : Heap α) (p q : Ptr) : Option (Heap α) := if h.Node p then some (h.linked p q) else none
def store (h : Heap α) (p : Ptr) (a : α) : Option (Heap α) := if h.Node p then some (h.stored p a) else none
def free (h : Heap α) (p : Ptr) : Option (Heap α) := if h.Node p then some (h.freed p) else none

-- A place the allocator can give, and a node there that leads nowhere.
def Fresh (h : Heap α) (p : Ptr) : Prop := p ≠ null ∧ h.live p = false

def alloc (h : Heap α) (p : Ptr) (a : α) : Heap α :=
  ⟨Function.update h.pnext p null,Function.update h.pnode p a,Function.update h.live p true⟩

variable {h : Heap α} {p q : Ptr} {a : α}

@[simp] theorem linked_pnode : (h.linked p q).pnode = h.pnode := rfl
@[simp] theorem linked_live : (h.linked p q).live = h.live := rfl
@[simp] theorem freed_pnode : (h.freed p).pnode = h.pnode := rfl

theorem Node.next (node : h.Node p) : h.next p = some (h.pnext p) := if_pos node
theorem Node.node (node : h.Node p) : h.node p = some (h.pnode p) := if_pos node
theorem Node.link (node : h.Node p) (q : Ptr) : h.link p q = some (h.linked p q) := if_pos node
theorem Node.store (node : h.Node p) (a : α) : h.store p a = some (h.stored p a) := if_pos node
theorem Node.free (node : h.Node p) : h.free p = some (h.freed p) := if_pos node

theorem node_some (run : h.node p = some a) : h.Node p ∧ a = h.pnode p := by
  unfold node at run
  split at run
  · rename_i real
    exact ⟨real,(Option.some.inj run).symm⟩
  · cases run

theorem next_some (run : h.next p = some q) : h.Node p ∧ q = h.pnext p := by
  unfold next at run
  split at run
  · rename_i real
    exact ⟨real,(Option.some.inj run).symm⟩
  · cases run

theorem link_some {k : Heap α} (run : h.link p q = some k) : h.Node p ∧ k = h.linked p q := by
  unfold link at run
  split at run
  · rename_i real
    exact ⟨real,(Option.some.inj run).symm⟩
  · cases run

theorem store_some {k : Heap α} (run : h.store p a = some k) : h.Node p ∧ k = h.stored p a := by
  unfold store at run
  split at run
  · rename_i real
    exact ⟨real,(Option.some.inj run).symm⟩
  · cases run

theorem free_some {k : Heap α} (run : h.free p = some k) : h.Node p ∧ k = h.freed p := by
  unfold free at run
  split at run
  · rename_i real
    exact ⟨real,(Option.some.inj run).symm⟩
  · cases run

end Heap

-- From `head` the links meet exactly `cells`, each once, and end.
structure Chain (h : Heap α) (head : Ptr) (cells : List Ptr) : Prop where
  path : Path h.pnext null head cells null
  apart : cells.Nodup
  live : ∀ c ∈ cells, h.live c = true

theorem map_untouched {β : Type} (f : Ptr → β) {c : Ptr} {cells : List Ptr} (foreign : c ∉ cells) (b : β) :
    cells.map (Function.update f c b) = cells.map f := by
  refine List.map_congr_left fun x member => Function.update_of_ne ?_ _ _
  rintro rfl
  exact foreign member

theorem path_start (path : Path next null a cells b) : a = cells.headD b := by
  cases cells with
  | nil => exact path
  | cons c rest => exact path.1

namespace Chain
variable {h : Heap α} {head c d p : Ptr} {a : α} {cells behind ahead : List Ptr}

theorem node (chain : Chain h head cells) (member : c ∈ cells) : h.Node c :=
  ⟨chain.path.cells_exist c member,chain.live c member⟩

theorem start (chain : Chain h head cells) : head = cells.headD null := path_start chain.path

theorem nil (chain : Chain h null cells) : cells = [] := by
  cases cells with
  | nil => rfl
  | cons c rest => exact absurd chain.path.1.symm chain.path.2.1

theorem empty (h : Heap α) : Chain h null [] := ⟨rfl,List.nodup_nil,fun _ member => nomatch member⟩

theorem next_ahead (chain : Chain h head (behind ++ c :: ahead)) : h.pnext c = ahead.headD null := by
  obtain ⟨_,_,_,_,onward⟩ := path_append.mp chain.path
  exact path_start onward

theorem congr {k : Heap α} (chain : Chain h head cells) (pnext : k.pnext = h.pnext) (live : k.live = h.live) : Chain k head cells := by
  refine ⟨?_,chain.apart,?_⟩
  · rw [pnext]
    exact chain.path
  · rw [live]
    exact chain.live

theorem tail (chain : Chain h head (c :: ahead)) : Chain h (h.pnext c) ahead :=
  ⟨chain.path.2.2,(List.nodup_cons.mp chain.apart).2,fun x member => chain.live x (List.mem_cons_of_mem _ member)⟩

theorem unique {others : List Ptr} (one : Chain h head cells) (two : Chain h head others) : cells = others := by
  induction cells generalizing head others with
  | nil =>
    have empty : head = null := one.start
    subst empty
    exact two.nil.symm
  | cons c rest ih =>
    have start : head = c := one.start
    subst start
    cases others with
    | nil => exact absurd two.start (one.node (List.mem_cons_self ..)).1
    | cons d more =>
      have same : head = d := two.start
      subst same
      rw [ih one.tail two.tail]

theorem suffix (chain : Chain h head (behind ++ cells)) : Chain h (cells.headD null) cells := by
  obtain ⟨m,_,onward⟩ := path_append.mp chain.path
  rw [path_start onward] at onward
  exact ⟨onward,(List.nodup_append.mp chain.apart).2.1,fun x member => chain.live x (List.mem_append_right _ member)⟩

theorem foreign_rest (chain : Chain h head (behind ++ c :: ahead)) : c ∉ behind ++ ahead :=
  (List.nodup_cons.mp (List.nodup_middle.mp chain.apart)).1

theorem foreign_split (chain : Chain h head (behind ++ c :: ahead)) : c ∉ behind ∧ c ∉ ahead := by
  have alone := chain.foreign_rest
  rw [List.mem_append,not_or] at alone
  exact alone

theorem foreign_pair (chain : Chain h head (behind ++ c :: d :: ahead)) : d ∉ behind ++ c :: ahead := by
  have split := chain
  rw [List.append_cons] at split
  simpa [and_assoc] using split.foreign_split

theorem linked (chain : Chain h head cells) (foreign : p ∉ cells) (q : Ptr) : Chain (h.linked p q) head cells :=
  ⟨chain.path.untouched foreign q,chain.apart,chain.live⟩

theorem stored (chain : Chain h head cells) (p : Ptr) (a : α) : Chain (h.stored p a) head cells :=
  ⟨chain.path,chain.apart,chain.live⟩

theorem freed (chain : Chain h head cells) (foreign : p ∉ cells) : Chain (h.freed p) head cells := by
  refine ⟨chain.path,chain.apart,fun c member => ?_⟩
  have other : c ≠ p := by rintro rfl; exact foreign member
  exact (Function.update_of_ne other _ _).trans (chain.live c member)

theorem alloc (chain : Chain h head cells) (fresh : h.Fresh p) (a : α) : p ∉ cells ∧ Chain (h.alloc p a) head cells := by
  have foreign : p ∉ cells := by
    intro member
    have live := chain.live p member
    rw [fresh.2] at live
    cases live
  refine ⟨foreign,chain.path.untouched foreign null,chain.apart,fun c member => ?_⟩
  have other : c ≠ p := by rintro rfl; exact foreign member
  exact (Function.update_of_ne other _ _).trans (chain.live c member)

theorem push (chain : Chain h head cells) (node : h.Node p) (foreign : p ∉ cells) :
    Chain (h.linked p head) p (p :: cells) := by
  refine ⟨⟨rfl,node.1,?_⟩,List.nodup_cons.mpr ⟨foreign,chain.apart⟩,?_⟩
  · have turned : (h.linked p head).pnext p = head := Function.update_self ..
    rw [turned]
    exact chain.path.untouched foreign head
  · intro c member
    rcases List.mem_cons.mp member with rfl | old
    · exact node.2
    · exact chain.live c old

theorem splice (chain : Chain h head (behind ++ c :: ahead)) (node : h.Node p) (foreign : p ∉ behind ++ c :: ahead)
    (leads : h.pnext p = ahead.headD null) : Chain (h.linked c p) head (behind ++ c :: p :: ahead) := by
  obtain ⟨offBehind,offAhead⟩ := chain.foreign_split
  have apart : c ≠ p := by rintro rfl; exact foreign (by simp)
  obtain ⟨m,toC,same,real,onward⟩ := path_append.mp chain.path
  refine ⟨path_append.mpr ⟨m,toC.untouched offBehind p,same,real,?_⟩,?_,?_⟩
  · have turned : (h.linked c p).pnext c = p := Function.update_self ..
    have still : (h.linked c p).pnext p = h.pnext p := Function.update_of_ne (Ne.symm apart) _ _
    rw [turned]
    refine ⟨rfl,node.1,?_⟩
    rw [still,leads,←path_start onward]
    exact onward.untouched offAhead p
  · have moved : (behind ++ c :: p :: ahead).Perm (p :: (behind ++ c :: ahead)) := by
      rw [List.append_cons behind c (p :: ahead),List.append_cons behind c ahead]
      exact List.perm_middle
    exact moved.nodup_iff.mpr (List.nodup_cons.mpr ⟨foreign,chain.apart⟩)
  · intro x member
    by_cases new : x = p
    · rw [new]
      exact node.2
    · exact chain.live x (by simpa [new] using member)

theorem skip (chain : Chain h head (behind ++ c :: d :: ahead)) : Chain (h.linked c (h.pnext d)) head (behind ++ c :: ahead) := by
  obtain ⟨offBehind,off⟩ := chain.foreign_split
  have offAhead : c ∉ ahead := fun member => off (List.mem_cons_of_mem _ member)
  obtain ⟨m,toC,same,real,_,_,onward⟩ := path_append.mp chain.path
  have fewer : (behind ++ c :: ahead).Sublist (behind ++ c :: d :: ahead) :=
    (List.Sublist.refl behind).append ((List.sublist_cons_self d ahead).cons_cons c)
  refine ⟨path_append.mpr ⟨m,toC.untouched offBehind _,same,real,?_⟩,chain.apart.sublist fewer,
    fun x member => chain.live x (fewer.subset member)⟩
  have turned : (h.linked c (h.pnext d)).pnext c = h.pnext d := Function.update_self ..
  rw [turned]
  exact onward.untouched offAhead _

theorem map_stored {i : Nat} (chain : Chain h head cells) (here : cells[i]? = some c) (a : α) :
    cells.map (h.stored c a).pnode = (cells.map h.pnode).set i a := by
  obtain ⟨inside,same⟩ := List.getElem?_eq_some_iff.mp here
  have place : cells.idxOf c = i := by
    rw [←same]
    exact chain.apart.idxOf_getElem i inside
  have written := chain.apart.map_update h.pnode c a
  rwa [if_pos (List.mem_of_getElem? here),place] at written

end Chain

inductive Turn (σ : Type) where
  | next (s : σ)
  | stop (s : σ)

def forNodes (body : σ → Ptr → α → Turn σ) (h : Heap α) : Nat → Ptr → σ → Option σ
  | 0,_,_ => none
  | turns+1,p,s =>
    if p = null then some s
    else do
      let a ← h.node p
      match body s p a with
      | .stop s => some s
      | .next s => do
        let q ← h.next p
        forNodes body h turns q s

def foldNodes (body : σ → Ptr → α → Turn σ) : List (Ptr × α) → σ → σ
  | [],s => s
  | (p,a) :: rest,s =>
    match body s p a with
    | .stop s => s
    | .next s => foldNodes body rest s

theorem forNodes_fold {h : Heap α} {p : Ptr} {cells : List Ptr} (chain : Chain h p cells)
    (body : σ → Ptr → α → Turn σ) (s : σ) (enough : cells.length < turns) :
    forNodes body h turns p s = some (foldNodes body (cells.map fun c => (c,h.pnode c)) s) := by
  induction cells generalizing p s turns with
  | nil =>
    obtain ⟨turns,rfl⟩ := Nat.exists_eq_succ_of_ne_zero (Nat.ne_zero_of_lt enough)
    rw [chain.start]
    rfl
  | cons c rest ih =>
    obtain ⟨turns,rfl⟩ := Nat.exists_eq_succ_of_ne_zero (Nat.ne_zero_of_lt enough)
    have here := chain.node (List.mem_cons_self ..)
    have tail := chain.tail
    rw [chain.start,List.headD_cons,List.map_cons]
    unfold forNodes foldNodes
    rw [if_neg here.1,here.node]
    dsimp only [Option.bind_eq_bind,Option.bind_some]
    cases body s c (h.pnode c) with
    | stop s => rfl
    | next s =>
      rw [here.next]
      exact ih tail s (by simpa using enough)

end HeapList
