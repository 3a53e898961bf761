import Mathlib.Data.Option.Basic

namespace SideBySide
universe u v w x y
variable {S : Type u} {E : Type v} {R : Type w} {I : Type x} {P : Type y}

-- A run together with what each event has answered. A step that cannot be taken ends it.
def run (step : S → E → Option (S × R)) (s : S) : List E → Option (S × List (E × R))
  | [] => some (s,[])
  | event :: rest => (step s event).bind fun one => (run step one.1 rest).map fun more => (more.1,(event,one.2) :: more.2)

def play (act : P → E → P × R) (p : P) : List E → P × List (E × R)
  | [] => (p,[])
  | event :: rest => ((play act (act p event).1 rest).1,(event,(act p event).2) :: (play act (act p event).1 rest).2)

def EachAllowed (act : P → E → P × R) (Allowed : P → E → Prop) : P → List E → Prop
  | _,[] => True
  | p,event :: rest => Allowed p event ∧ EachAllowed act Allowed (act p event).1 rest

section Parts
variable [DecidableEq I] (owner : E → I)

def own (i : I) (events : List E) : List E := events.filter fun event => owner event = i
def ownAnswers (i : I) (answers : List (E × R)) : List (E × R) := answers.filter fun answer => owner answer.1 = i

variable {owner}

theorem own_same {event : E} {rest : List E} {i : I} (same : owner event = i) :
    own owner i (event :: rest) = event :: own owner i rest :=
  List.filter_cons_of_pos (decide_eq_true same)

theorem own_other {event : E} {rest : List E} {i : I} (other : owner event ≠ i) :
    own owner i (event :: rest) = own owner i rest :=
  List.filter_cons_of_neg (by simpa using other)

theorem ownAnswers_same {event : E} {r : R} {rest : List (E × R)} {i : I} (same : owner event = i) :
    ownAnswers owner i ((event,r) :: rest) = (event,r) :: ownAnswers owner i rest :=
  List.filter_cons_of_pos (decide_eq_true same)

theorem ownAnswers_other {event : E} {r : R} {rest : List (E × R)} {i : I} (other : owner event ≠ i) :
    ownAnswers owner i ((event,r) :: rest) = ownAnswers owner i rest :=
  List.filter_cons_of_neg (by simpa using other)

variable (step : S → E → Option (S × R)) (act : P → E → P × R) (part : I → S → P) (owner)

-- What a step does: to the part whose event it is what the part does by itself, and
-- nothing to the others.
structure Apart (Inv : S → Prop) (s : S) (event : E) (next : S) (r : R) : Prop where
  taken : step s event = some (next,r)
  kept : Inv next
  own : act (part (owner event) s) event = (part (owner event) next,r)
  others : ∀ i, i ≠ owner event → part i next = part i s

variable {step act part owner} {Inv : S → Prop} {Allowed : P → E → Prop} {s : S} {events : List E}

theorem allowed_later {event : E} {rest : List E} {next : S} {r : R} (one : Apart owner step act part Inv s event next r)
    (allowed : ∀ i, EachAllowed act Allowed (part i s) (own owner i (event :: rest))) (i : I) :
    EachAllowed act Allowed (part i next) (own owner i rest) := by
  have here := allowed i
  by_cases same : owner event = i
  · subst same
    rw [own_same rfl] at here
    have later := here.2
    rw [one.own] at later
    exact later
  · rw [own_other same] at here
    rw [one.others i fun back => same back.symm]
    exact here

-- Where every event is allowed in its own part, any order of all events goes through, and
-- each part ends where its own events alone would have taken it, with the same answers.
theorem runs_apart
    (steps : ∀ s event, Inv s → Allowed (part (owner event) s) event →
      ∃ next r, Apart owner step act part Inv s event next r)
    (start : Inv s) (allowed : ∀ i, EachAllowed act Allowed (part i s) (own owner i events)) :
    ∃ last answers, run step s events = some (last,answers) ∧ Inv last ∧
      ∀ i, play act (part i s) (own owner i events) = (part i last,ownAnswers owner i answers) := by
  induction events generalizing s with
  | nil => exact ⟨s,[],rfl,start,fun _ => rfl⟩
  | cons event rest ih =>
    have here := allowed (owner event)
    rw [own_same rfl] at here
    obtain ⟨next,r,one⟩ := steps s event start here.1
    obtain ⟨last,answers,ran,kept,parts⟩ := ih one.kept (allowed_later one allowed)
    refine ⟨last,(event,r) :: answers,?_,kept,fun i => ?_⟩
    · simp [run,one.taken,ran]
    · by_cases same : owner event = i
      · subst same
        rw [own_same rfl,ownAnswers_same rfl]
        simp [play,one.own,parts]
      · rw [own_other same,ownAnswers_other same,←one.others i fun back => same back.symm]
        exact parts i

end Parts

end SideBySide
