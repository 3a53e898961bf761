import Mathlib.Init

namespace NonosLinkLayer.Glue

inductive GlueErr where
  | ok | mem | buf | timeout | rte | inprogress | val | wouldblock | use | already | isconn | conn | iface | abrt | rst | clsd | arg
deriving DecidableEq

inductive Err where
  | ok | mem | buf | timeout | rte | inprogress | val | wouldblock | use | already | isconn | conn | iface | abrt | rst | clsd | arg
deriving DecidableEq

-- err_t of the ESP side is any signed byte; the ERR_ constants are its err.h's.
def esp2glueErr : Int → GlueErr
  | 0 => .ok
  | -1 => .mem
  | -2 => .buf
  | -3 => .timeout
  | -4 => .rte
  | -5 => .inprogress
  | -6 => .val
  | -7 => .wouldblock
  | -8 => .abrt
  | -9 => .rst
  | -10 => .clsd
  | -11 => .conn
  | -12 => .arg
  | -13 => .use
  | -14 => .iface
  | -15 => .isconn
  | _ => .abrt

def glue2gitErr : GlueErr → Err
  | .ok => .ok
  | .mem => .mem
  | .buf => .buf
  | .timeout => .timeout
  | .rte => .rte
  | .inprogress => .inprogress
  | .val => .val
  | .wouldblock => .wouldblock
  | .use => .use
  | .already => .already
  | .isconn => .isconn
  | .conn => .conn
  | .iface => .iface
  | .abrt => .abrt
  | .rst => .rst
  | .clsd => .clsd
  | .arg => .arg

theorem esp2glueErr_ok {err : Int} : esp2glueErr err = .ok ↔ err = 0 := by
  constructor
  · intro ok
    unfold esp2glueErr at ok
    split at ok
    · rfl
    all_goals cases ok
  · rintro rfl
    rfl

theorem glue2gitErr_ok {err : GlueErr} : glue2gitErr err = .ok ↔ err = .ok := by
  cases err <;> simp [glue2gitErr]

def git2glueErr : Err → GlueErr
  | .ok => .ok
  | .mem => .mem
  | .buf => .buf
  | .timeout => .timeout
  | .rte => .rte
  | .inprogress => .inprogress
  | .val => .val
  | .wouldblock => .wouldblock
  | .use => .use
  | .already => .already
  | .isconn => .isconn
  | .conn => .conn
  | .iface => .iface
  | .abrt => .abrt
  | .rst => .rst
  | .clsd => .clsd
  | .arg => .arg

-- The ESP side has no ERR_ALREADY.
def glue2espErr : GlueErr → Int
  | .ok => 0
  | .mem => -1
  | .buf => -2
  | .timeout => -3
  | .rte => -4
  | .inprogress => -5
  | .val => -6
  | .wouldblock => -7
  | .abrt => -8
  | .rst => -9
  | .clsd => -10
  | .conn => -11
  | .arg => -12
  | .use => -13
  | .iface => -14
  | .isconn => -15
  | .already => -8

-- An error goes through the glue as it is, but for ERR_ALREADY.
theorem esp2glueErr_back (err : GlueErr) : esp2glueErr (glue2espErr err) = if err = .already then .abrt else err := by
  cases err <;> rfl

theorem glue2espErr_ok {err : GlueErr} : glue2espErr err = 0 ↔ err = .ok := by
  cases err <;> simp [glue2espErr]

theorem git2glueErr_back (err : Err) : glue2gitErr (git2glueErr err) = err := by
  cases err <;> rfl

end NonosLinkLayer.Glue
