import NonosLinkLayer.Base.HeapList
import NonosLinkLayer.Base.Turns

namespace HeapList
open Turns Filter
variable {α σ : Type}

def guarded (body : σ → Ptr → α → Option (Turn σ)) : Option σ → Ptr → α → Turn (Option σ)
  | none,_,_ => .stop none
  | some s,p,a =>
    match body s p a with
    | none => .stop none
    | some (.stop s) => .stop (some s)
    | some (.next s) => .next (some s)

def walkNodes (body : σ → Ptr → α → Option (Turn σ)) (h : Heap α) (turns : Nat) (p : Ptr) (s : σ) : Option σ :=
  (forNodes (guarded body) h turns p (some s)).join

def walked (body : σ → Ptr → α → Option (Turn σ)) : List (Ptr × α) → σ → Option σ
  | [],s => some s
  | (p,a) :: rest,s =>
    match body s p a with
    | none => none
    | some (.stop s) => some s
    | some (.next s) => walked body rest s

variable {h : Heap α} {p : Ptr} {cells : List Ptr} {body : σ → Ptr → α → Option (Turn σ)} {s : σ}

theorem fold_guarded (nodes : List (Ptr × α)) : foldNodes (guarded body) nodes (some s) = walked body nodes s := by
  induction nodes generalizing s with
  | nil => rfl
  | cons node rest ih =>
    obtain ⟨p,a⟩ := node
    rw [foldNodes,walked]
    dsimp only [guarded]
    cases body s p a with
    | none => rfl
    | some turn =>
      cases turn with
      | stop s => rfl
      | next s => exact ih

theorem Chain.walkNodes (chain : Chain h p cells) (body : σ → Ptr → α → Option (Turn σ)) (s : σ) :
    ∀ᶠ turns in atTop, walkNodes body h turns p s = walked body (cells.map fun c => (c,h.pnode c)) s := by
  refine (eventually_gt_atTop cells.length).mono fun turns enough => ?_
  unfold HeapList.walkNodes
  rw [forNodes_fold chain _ _ enough,fold_guarded]
  rfl

theorem Chain.walkNodes_settles (chain : Chain h p cells) {P : σ → Prop}
    (given : ∀ t, walked body (cells.map fun c => (c,h.pnode c)) s = some t → P t) :
    Settles (fun turns => HeapList.walkNodes body h turns p s) P :=
  ⟨_,chain.walkNodes body s,given⟩

def findTurn (test : α → Bool) : Option Ptr → Ptr → α → Option (Turn (Option Ptr)) :=
  fun _ p a => some (if test a then .stop (some p) else .next none)

theorem walked_find (test : α → Bool) (cells : List Ptr) :
    walked (findTurn test) (cells.map fun c => (c,h.pnode c)) none = some (cells.find? fun c => test (h.pnode c)) := by
  induction cells with
  | nil => rfl
  | cons c rest ih =>
    rw [List.map_cons,walked,List.find?_cons]
    unfold findTurn
    cases test (h.pnode c) with
    | true => rfl
    | false => exact ih

end HeapList
