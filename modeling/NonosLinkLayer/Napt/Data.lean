import NonosLinkLayer.Base.ByteMemory

namespace NonosLinkLayer.Napt

def ipProtoIcmp : UInt8 := 1
def ipProtoTcp : UInt8 := 6
def ipProtoUdp : UInt8 := 17

theorem tcp_icmp : ipProtoTcp ≠ ipProtoIcmp := by decide
theorem udp_icmp : ipProtoUdp ≠ ipProtoIcmp := by decide
theorem udp_tcp : ipProtoUdp ≠ ipProtoTcp := by decide

def ipNaptTimeoutMsTcp : UInt32 := 30*60*1000
def ipNaptTimeoutMsTcpDiscon : UInt32 := 20*1000
def ipNaptTimeoutMsUdp : UInt32 := 2*1000
def ipNaptTimeoutMsIcmp : UInt32 := 2*1000

def ipNaptPortRangeStart : UInt16 := 49152
def ipNaptPortRangeEnd : UInt16 := 61439

-- NO_IDX, `(u16_t)-1`. Indices are kept as numbers; none ever exceeds it.
def noIdx : Nat := 65535

-- struct napt_table without its two links: what one translated session is.
-- Addresses and ports are the raw words of the packet.
structure Session where
  last : UInt32
  src : UInt32
  dest : UInt32
  sport : UInt16
  dport : UInt16
  mport : UInt16
  proto : UInt8
  fin1 : Bool
  fin2 : Bool
  finack1 : Bool
  finack2 : Bool
  synack : Bool
  rst : Bool
  deriving DecidableEq, Repr

structure NaptTable extends Session where
  next : Nat
  prev : Nat
  deriving DecidableEq, Repr

structure PortmapTable where
  maddr : UInt32
  daddr : UInt32
  mport : UInt16
  dport : UInt16
  proto : UInt8
  valid : Bool
  deriving DecidableEq, Repr

-- struct napt_data. The length of `portmapTable` is portmap_max.
structure NaptData where
  table : Nat → NaptTable
  portmapTable : List PortmapTable
  nrActiveTcp : Int
  nrActiveUdp : Int
  nrActiveIcmp : Int
  list : Nat
  listLast : Nat
  free : Nat
  naptMax : Nat

def NaptData.modify (d : NaptData) (i : Nat) (f : NaptTable → NaptTable) : NaptData :=
  {d with table := Function.update d.table i (f (d.table i))}

-- Ways in which a call ends without a result: a write outside of the table, a
-- failed LWIP_ASSERT, a chain longer than the table, and a port search still
-- going when the random numbers it was given are used up.
inductive Fault where
  | outside
  | assertion
  | endless
  | draws
  deriving DecidableEq, Repr

theorem ok_bind {x : Except Fault α} {f : α → Except Fault β} :
    (x >>= f) = .ok b ↔ ∃ a, x = .ok a ∧ f a = .ok b := by
  cases x with
  | error e => simp [bind,Except.bind]
  | ok a => simp [bind,Except.bind]

-- How the code ends when all its accesses are checked: one behind the end of a
-- packet or a table, one through NULL, or a fault without any.
inductive Trap where
  | beyond
  | null
  | fault (f : Fault)
  deriving DecidableEq, Repr

def lift (x : Except Fault α) : Except Trap α := x.mapError .fault

def within (len last : Nat) (x : α) : Except Trap α := if last ≤ len then .ok x else .error .beyond

theorem within_ok {x : α} (fits : last ≤ len) : within len last x = .ok x := if_pos fits

theorem within_beyond {x : α} (short : len < last) : within len last x = .error .beyond := if_neg (by omega)

theorem lift_bind (x : Except Fault α) (f : α → Except Fault β) : lift (x >>= f) = lift x >>= fun a => lift (f a) := by
  cases x <;> rfl

@[simp] theorem lift_ok (a : α) : lift (.ok a) = .ok a := rfl

@[simp] theorem ok_then (a : α) (f : α → Except ε β) : (Except.ok a >>= f) = f a := rfl

@[simp] theorem trap_then (t : ε) (f : α → Except ε β) : (Except.error t >>= f) = .error t := rfl

inductive Err where
  | ok
  | mem
  | buf
  | rte
  deriving DecidableEq, Repr

def NaptTable.zero : NaptTable :=
  ⟨⟨0,0,0,0,0,0,0,false,false,false,false,false,false⟩,0,0⟩
def PortmapTable.zero : PortmapTable := ⟨0,0,0,0,0,false⟩

-- The tables as the last part of ip_napt_init leaves them. Its loop links each
-- entry to the one behind it and stops at `i = nat_max - 1`, where the chain is
-- closed.
def emptyTables (natMax : UInt16) (portmapMax : UInt8) : NaptData :=
  { table := fun i =>
      if i + 1 < natMax.toNat then {NaptTable.zero with next := i + 1}
      else if i + 1 = natMax.toNat then {NaptTable.zero with next := noIdx}
      else NaptTable.zero
    portmapTable := List.replicate portmapMax.toNat PortmapTable.zero
    nrActiveTcp := 0
    nrActiveUdp := 0
    nrActiveIcmp := 0
    list := noIdx
    listLast := noIdx
    free := 0
    naptMax := natMax.toNat }

structure Allocations where
  data : Bool
  table : Bool
  portmapTable : Bool

-- With nat_max 0 the loop stops at 0, behind the end of an empty table.
def ipNaptInit (naptData : Option NaptData) (natMax : UInt16) (portmapMax : UInt8)
    (calloc : Allocations) : Except Fault (Err × Option NaptData) :=
  match naptData with
  | some d => .ok (.buf,some d)
  | none =>
    if !calloc.data then .ok (.mem,none)
    else if !calloc.table then .ok (.mem,none)
    else if !calloc.portmapTable then .ok (.mem,none)
    else if natMax = 0 then .error .outside
    else .ok (.ok,some (emptyTables natMax portmapMax))

theorem init_tables (ran : ipNaptInit none natMax portmapMax calloc = .ok (.ok,some d)) :
    1 ≤ natMax ∧ d = emptyTables natMax portmapMax := by
  unfold ipNaptInit at ran
  split_ifs at ran with _ _ _ none
  · cases ran
  · cases ran
  · cases ran
  · cases ran
    exact ⟨UInt16.le_iff_toNat_le.mpr (Nat.pos_of_ne_zero fun zero => none (UInt16.toNat_inj.mp zero)),rfl⟩

end NonosLinkLayer.Napt
