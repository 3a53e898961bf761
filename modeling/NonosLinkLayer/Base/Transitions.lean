import Mathlib.Init

namespace Transitions
universe u v
variable {S : Type u} {E : Type v}

-- A run is listed oldest first and grows at its end, so that what has been
-- recorded so far is always the prefix an invariant speaks about.
inductive Runs (Step : S → E → S → Prop) : S → List E → S → Prop where
  | nil : Runs Step s [] s
  | step : Runs Step start past s → Step s event next → Runs Step start (past ++ [event]) next

variable {Step : S → E → S → Prop} {start middle s next : S} {past earlier later : List E} {event : E}

theorem Runs.single (step : Step s event next) : Runs Step s [event] next := by
  simpa using Runs.step .nil step

theorem Runs.append (one : Runs Step start earlier middle) (two : Runs Step middle later s) :
    Runs Step start (earlier ++ later) s := by
  induction two with
  | nil => simpa using one
  | step _ step ih => simpa only [List.append_assoc] using Runs.step ih step

theorem Runs.first (step : Step s event next) (rest : Runs Step next later middle) : Runs Step s (event :: later) middle :=
  (Runs.single step).append rest

theorem Runs.last (path : Runs Step start (past ++ [event]) next) : ∃ s, Runs Step start past s ∧ Step s event next := by
  generalize same : past ++ [event] = events at path
  cases path with
  | nil => exact absurd same (by simp)
  | step prior step =>
    obtain ⟨rfl,rfl⟩ := List.append_inj' same rfl |>.imp_right List.singleton_inj.mp
    exact ⟨_,prior,step⟩

theorem Runs.unique (one : Runs Step start past s) (two : Runs Step start past middle)
    (alone : ∀ {s event next other}, Step s event next → Step s event other → other = next) : middle = s := by
  induction one generalizing middle with
  | nil =>
    generalize none : ([] : List E) = events at two
    cases two with
    | nil => rfl
    | step => exact absurd none (by simp)
  | step prior step ih =>
    obtain ⟨before,path,step'⟩ := two.last
    cases ih path
    exact alone step step'

theorem Runs.of_foldlM {f : S → E → Option S} (computed : later.foldlM f start = some s) :
    Runs (fun s event next => f s event = some next) start later s := by
  induction later generalizing start with
  | nil =>
    cases computed
    exact .nil
  | cons event rest ih =>
    rw [List.foldlM_cons] at computed
    obtain ⟨next,step,run⟩ := Option.bind_eq_some_iff.mp computed
    exact .first step (ih run)

theorem Runs.mono {Other : S → E → S → Prop} (path : Runs Step start past s)
    (weaker : ∀ {s event next}, Step s event next → Other s event next) : Runs Other start past s := by
  induction path with
  | nil => exact .nil
  | step _ step ih => exact ih.step (weaker step)

-- The invariant rule: what holds at the start and survives one step holds at the end.
theorem Runs.keeps {I : S → Prop} (path : Runs Step start past s) (initial : I start)
    (preserved : ∀ {s event next}, I s → Step s event next → I next) : I s := by
  induction path with
  | nil => exact initial
  | step _ step ih => exact preserved ih step

-- The same rule for an invariant that also speaks about the record, and may
-- use that every state on the way was itself reached.
theorem Runs.records {I : List E → S → Prop} (path : Runs Step start past s) (initial : I [] start)
    (preserved : ∀ {past s event next}, Runs Step start past s → I past s → Step s event next →
      I (past ++ [event]) next) : I past s := by
  induction path with
  | nil => exact initial
  | step prior step ih => exact preserved prior ih step

-- A condition under which a step keeps what is good, and without which the step
-- makes it bad for ever: a run is good at its end when all its steps meet it.
theorem Runs.meets_or {Good Bad : S → Prop} {Q : S → E → Prop} (path : Runs Step start past s) (good : Good start)
    (splits : ∀ {s event next}, Good s → Step s event next → (Q s event ∧ Good next) ∨ (¬ Q s event ∧ Bad next))
    (stays : ∀ {s event next}, Bad s → Step s event next → Bad next) :
    (Runs (fun s event next => Step s event next ∧ Q s event) start past s ∧ Good s) ∨ Bad s := by
  induction path with
  | nil => exact .inl ⟨.nil,good⟩
  | step prior step ih =>
    rcases ih with ⟨met,kept⟩ | bad
    · rcases splits kept step with ⟨here,later⟩ | ⟨_,bad⟩
      · exact .inl ⟨met.step ⟨step,here⟩,later⟩
      · exact .inr bad
    · exact .inr (stays bad step)

-- Along events that come one behind the other: what holds in every state on the
-- way, and what every event is when it comes.
def Throughout (Step : S → E → S → Prop) (P : S → Prop) : S → List E → Prop
  | s,[] => P s
  | s,event :: rest => P s ∧ ∀ next, Step s event next → Throughout Step P next rest

def EachMeets (Step : S → E → S → Prop) (Q : S → E → Prop) : S → List E → Prop
  | _,[] => True
  | s,event :: rest => Q s event ∧ ∀ next, Step s event next → EachMeets Step Q next rest

section Along
variable {P I : S → Prop} {Q Q' : S → E → Prop} {events : List E}

theorem Throughout.here (all : Throughout Step P s events) : P s := by
  cases events with
  | nil => exact all
  | cons event rest => exact all.1

theorem Throughout.after (path : Runs Step start past s) (all : Throughout Step P start (past ++ later)) :
    Throughout Step P s later := by
  induction path generalizing later with
  | nil => exact all
  | step _ step ih =>
    rw [List.append_assoc] at all
    exact (ih all).2 _ step

-- Where there is one next state, and a condition on the event says exactly when it
-- has the property, the conditions on all events say when the property holds throughout.
theorem throughout_iff (exactly : ∀ s event, P s → ∃ next, Step s event next ∧
    (∀ other, Step s event other → other = next) ∧ (P next ↔ Q s event)) (start : P s) :
    Throughout Step P s events ↔ EachMeets Step Q s events := by
  induction events generalizing s with
  | nil => exact iff_of_true start trivial
  | cons event rest ih =>
    obtain ⟨next,step,alone,meets⟩ := exactly s event start
    constructor
    · rintro ⟨_,later⟩
      have kept := (later next step).here
      refine ⟨meets.mp kept,fun other step' => ?_⟩
      cases alone other step'
      exact (ih kept).mp (later next step)
    · rintro ⟨met,later⟩
      refine ⟨start,fun other step' => ?_⟩
      cases alone other step'
      exact (ih (meets.mpr met)).mpr (later next step)

theorem eachMeets_congr (kept : ∀ {s event next}, I s → Step s event next → I next)
    (same : ∀ s event, I s → (Q s event ↔ Q' s event)) (start : I s) :
    EachMeets Step Q s events ↔ EachMeets Step Q' s events := by
  induction events generalizing s with
  | nil => exact Iff.rfl
  | cons event rest ih =>
    exact and_congr (same s event start) (forall₂_congr fun next step => ih (kept start step))

theorem eachMeets_mono (kept : ∀ {s event next}, I s → Q s event → Step s event next → I next)
    (stronger : ∀ s event, I s → Q s event → Q' s event) (start : I s) (all : EachMeets Step Q s events) :
    EachMeets Step Q' s events := by
  induction events generalizing s with
  | nil => trivial
  | cons event rest ih =>
    obtain ⟨here,later⟩ := all
    exact ⟨stronger s event start here,fun next step => ih (kept start here step) (later next step)⟩

end Along

end Transitions
