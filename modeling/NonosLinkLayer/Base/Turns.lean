import Mathlib.Order.Filter.AtTopBot.Basic

-- A loop is a function of the number of turns it may take. What it comes to is
-- what it gives for every number that is large enough.
namespace Turns
open Filter
universe u v
variable {α : Type u} {β : Type v} {f g : Nat → Option α} {a b : α} {P Q : α → Prop}

def Ends (f : Nat → Option α) (a : α) : Prop := ∀ᶠ turns in atTop, f turns = some a

theorem Ends.unique (one : Ends f a) (two : Ends f b) : a = b := by
  obtain ⟨_,left,right⟩ := (one.and two).exists
  exact Option.some.inj (left.symm.trans right)

theorem Ends.always (given : ∀ turns, f turns = some a) : Ends f a := Eventually.of_forall given
theorem Ends.done (a : α) : Ends (fun _ => some a) a := .always fun _ => rfl

theorem Ends.enough {bound : Nat} (given : ∀ turns, bound < turns → f turns = some a) : Ends f a :=
  (eventually_gt_atTop bound).mono given

theorem Ends.bind {h : Nat → α → Option β} {b : β} (first : Ends f a) (then_ : Ends (fun turns => h turns a) b) :
    Ends (fun turns => (f turns).bind (h turns)) b := by
  refine (first.and then_).mono fun turns both => ?_
  change (f turns).bind (h turns) = some b
  rw [both.1]
  exact both.2

theorem Ends.map (first : Ends f a) (k : α → β) : Ends (fun turns => (f turns).map k) (k a) := by
  refine first.mono fun turns equal => ?_
  change (f turns).map k = some (k a)
  rw [equal]
  rfl

theorem Ends.turn (body : ∀ turns, f (turns + 1) = g turns) (rest : Ends g a) : Ends f a := by
  obtain ⟨bound,given⟩ := eventually_atTop.mp rest
  refine eventually_atTop.mpr ⟨bound + 1,fun turns enough => ?_⟩
  obtain ⟨turns,rfl⟩ := Nat.exists_eq_add_of_le' (Nat.le_trans (Nat.le_add_left 1 bound) enough)
  rw [body]
  exact given turns (Nat.le_of_succ_le_succ enough)

theorem Ends.late (bound : Nat) (given : ∀ turns, f (turns + bound) = some a) : Ends f a := by
  refine eventually_atTop.mpr ⟨bound,fun turns enough => ?_⟩
  obtain ⟨turns,rfl⟩ := Nat.exists_eq_add_of_le' enough
  exact given turns

def Yields (f : Nat → Option α) (P : α → Prop) : Prop := ∃ a, P a ∧ Ends f a

theorem Yields.holds (yields : Yields f P) (ends : Ends f a) : P a := by
  obtain ⟨b,holds,other⟩ := yields
  exact ends.unique other ▸ holds

theorem Yields.mono (yields : Yields f P) (weaker : ∀ a, P a → Q a) : Yields f Q := by
  obtain ⟨a,holds,ends⟩ := yields
  exact ⟨a,weaker a holds,ends⟩

theorem Yields.done (holds : P a) : Yields (fun _ => some a) P := ⟨a,holds,.done a⟩

theorem Yields.bind {h : Nat → α → Option β} {Q : β → Prop} (first : Yields f P)
    (then_ : ∀ a, P a → Yields (fun turns => h turns a) Q) : Yields (fun turns => (f turns).bind (h turns)) Q := by
  obtain ⟨a,holds,ends⟩ := first
  obtain ⟨b,result,rest⟩ := then_ a holds
  exact ⟨b,result,ends.bind rest⟩

theorem Yields.map {Q : β → Prop} (first : Yields f P) (k : α → β) (then_ : ∀ a, P a → Q (k a)) :
    Yields (fun turns => (f turns).map k) Q := by
  obtain ⟨a,holds,ends⟩ := first
  exact ⟨k a,then_ a holds,ends.map k⟩

theorem Yields.turn (body : ∀ turns, f (turns + 1) = g turns) (rest : Yields g P) : Yields f P := by
  obtain ⟨a,holds,ends⟩ := rest
  exact ⟨a,holds,ends.turn body⟩

-- The loop comes to the same for every number of turns that is large enough,
-- and if that is a result and no failure, to one with `P`.
def Settles (f : Nat → Option α) (P : α → Prop) : Prop :=
  ∃ outcome, (∀ᶠ turns in atTop, f turns = outcome) ∧ ∀ a, outcome = some a → P a

theorem Settles.holds (settles : Settles f P) (ends : Ends f a) : P a := by
  obtain ⟨outcome,same,holds⟩ := settles
  obtain ⟨_,left,right⟩ := (same.and ends).exists
  exact holds a (left.symm.trans right)

theorem Settles.mono (settles : Settles f P) (weaker : ∀ a, P a → Q a) : Settles f Q := by
  obtain ⟨outcome,same,holds⟩ := settles
  exact ⟨outcome,same,fun a equal => weaker a (holds a equal)⟩

theorem Settles.done (holds : P a) : Settles (fun _ => some a) P := by
  refine ⟨some a,.of_forall fun _ => rfl,fun b equal => ?_⟩
  cases equal
  exact holds

theorem Settles.fails : Settles (fun _ => (none : Option α)) P :=
  ⟨none,.of_forall fun _ => rfl,fun _ equal => by cases equal⟩

theorem Settles.option {o : Option α} (holds : ∀ a, o = some a → P a) : Settles (fun _ => o) P :=
  ⟨o,.of_forall fun _ => rfl,holds⟩

theorem Yields.settles (yields : Yields f P) : Settles f P := by
  obtain ⟨a,holds,ends⟩ := yields
  refine ⟨some a,ends,fun b equal => ?_⟩
  cases equal
  exact holds

theorem Settles.bind {h : Nat → α → Option β} {Q : β → Prop} (first : Settles f P)
    (then_ : ∀ a, P a → Settles (fun turns => h turns a) Q) : Settles (fun turns => (f turns).bind (h turns)) Q := by
  obtain ⟨outcome,same,holds⟩ := first
  cases outcome with
  | none =>
    refine ⟨none,same.mono fun turns equal => ?_,fun _ equal => by cases equal⟩
    change (f turns).bind (h turns) = none
    rw [equal]
    rfl
  | some a =>
    obtain ⟨rest,further,result⟩ := then_ a (holds a rfl)
    refine ⟨rest,(same.and further).mono fun turns both => ?_,result⟩
    change (f turns).bind (h turns) = rest
    rw [both.1]
    exact both.2

theorem Settles.map {Q : β → Prop} (first : Settles f P) (k : α → β) (then_ : ∀ a, P a → Q (k a)) :
    Settles (fun turns => (f turns).map k) Q := by
  obtain ⟨outcome,same,holds⟩ := first
  refine ⟨outcome.map k,same.mono fun turns equal => congrArg (Option.map k) equal,fun b equal => ?_⟩
  obtain ⟨a,there,rfl⟩ := Option.map_eq_some_iff.mp equal
  exact then_ a (holds a there)

end Turns
