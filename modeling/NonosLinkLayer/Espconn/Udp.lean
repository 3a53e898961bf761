import NonosLinkLayer.Base.Pieces
import NonosLinkLayer.Base.Transitions
import NonosLinkLayer.Espconn.Sending

namespace NonosLinkLayer.Espconn
open Pieces

def espconnOk : Int := 0
def espconnRte : Int := -4
def espconnIf : Int := -14
def espconnApSta : UInt8 := 3
def ipFragMaxMtu : UInt16 := 1500

inductive Netif where
  | sta
  | ap
  | other (n : Nat)
  deriving DecidableEq

inductive EspconnState where
  | none
  | wait
  | listen
  | connect
  | write
  | read
  | close
  deriving DecidableEq

inductive SendOpt where
  | sendto
  | send
  deriving DecidableEq

-- What udp_send and udp_sendto give back: an error code, and a pbuf of which the caller
-- still has its reference.
structure UdpAnswer where
  err : Int
  ref : UInt8
  held : ref ≠ 0

theorem one_held : (1 : UInt8) ≠ 0 := by decide

-- What the code uses of lwIP and the SDK. The calls of pbuf_alloc are numbered one after
-- the other, and so are those of udp_send and udp_sendto.
structure UdpStack where
  opmode : UInt8
  defaultInterface : UInt8
  present : Netif → Bool
  up : Netif → Bool
  isBroadcast : UInt32 → Netif → Bool
  pbufAlloc : Nat → Bool
  udpSend : Nat → UdpAnswer

structure Datagram where
  netif : Option Netif
  addr : UInt32
  port : UInt16
  data : List UInt8
  deriving DecidableEq

-- An espconn_msg of UDP with its udp_pcb, and netif_default. The last four fields
-- record what happened: how often pbuf_alloc and udp_send were called, the datagrams
-- handed to the latter, and the calls of sent_callback.
structure UdpMsg where
  remoteIp : UInt32
  remotePort : Int
  state : EspconnState
  sentCallback : Bool
  ptrbuf : List UInt8
  cntr : UInt16
  err : Int
  pcbIp : UInt32
  pcbPort : UInt16
  netifDefault : Option Netif
  allocs : Nat
  sends : Nat
  sent : List Datagram
  called : Nat

def UdpStack.duplicates (L : UdpStack) (addr : UInt32) : Bool :=
  L.opmode == espconnApSta && L.defaultInterface == espconnApSta && L.present .sta && L.present .ap &&
    (L.up .sta && L.up .ap && L.isBroadcast addr .sta && L.isBroadcast addr .ap)

namespace UdpMsg

def pbufAlloc (L : UdpStack) (s : UdpMsg) : UdpMsg × Bool := ({s with allocs := s.allocs + 1},L.pbufAlloc s.allocs)

def udpSendto (L : UdpStack) (s : UdpMsg) (data : List UInt8) (addr : UInt32) (port : UInt16) : UdpMsg × UdpAnswer :=
  ({s with sends := s.sends + 1,sent := s.sent ++ [⟨s.netifDefault,addr,port,data⟩]},L.udpSend s.sends)

def udpSend (L : UdpStack) (s : UdpMsg) (data : List UInt8) : UdpMsg × UdpAnswer := s.udpSendto L data s.pcbIp s.pcbPort

def remotePort16 (s : UdpMsg) : UInt16 := UInt16.ofInt s.remotePort

-- Where the two functions differ: espconn_udp_sent takes the destination over into the
-- pcb, espconn_udp_sendto names it in the call.
def aim (opt : SendOpt) (s : UdpMsg) : UdpMsg :=
  match opt with
  | .send => {s with pcbIp := s.remoteIp,pcbPort := s.remotePort16}
  | .sendto => s

def handOver (L : UdpStack) (opt : SendOpt) (s : UdpMsg) (data : List UInt8) : UdpMsg × UdpAnswer :=
  match opt with
  | .send => s.udpSend L data
  | .sendto => s.udpSendto L data s.remoteIp s.remotePort16

-- One datagram, from pbuf_alloc on. A copy that could not be allocated is one that
-- pbuf_copy fails on.
def emit (L : UdpStack) (opt : SendOpt) (data : List UInt8) (s : UdpMsg) : UdpMsg × Except Int UdpAnswer :=
  match s.pbufAlloc L with
  | (s,false) => (s,.error espconnMem)
  | (s,true) =>
    let s := s.aim opt
    if L.duplicates s.pcbIp then
      match s.pbufAlloc L with
      | (s,false) => (s,.error espconnArg)
      | (s,true) =>
        let s := ({s with netifDefault := some .sta}.handOver L opt data).1
        let (s,answer) := {s with netifDefault := some .ap}.handOver L opt data
        (s,.ok answer)
    else
      let (s,answer) := s.handOver L opt data
      (s,.ok answer)

def espconnDataSentcb (s : UdpMsg) : UdpMsg := if s.sentCallback then {s with called := s.called + 1} else s

def espconnDataSent (again : List UInt8 → UInt16 → UdpMsg → Option (UdpMsg × Int)) (s : UdpMsg) : Option UdpMsg :=
  if s.cntr = 0 then
    let s := {s with state := .connect}
    some (if s.err = 0 then s.espconnDataSentcb else s)
  else (again s.ptrbuf s.cntr s).map Prod.fst

def transmit (L : UdpStack) (opt : SendOpt) : Nat → List UInt8 → UInt16 → UdpMsg → Option (UdpMsg × Int)
  | 0,_,_,_ => none
  | turns+1,psent,length,s =>
    if length = 0 then some (s,espconnArg)
    else
      let datalen := if ipFragMaxMtu - 20 - 8 < length then ipFragMaxMtu - 20 - 8 else length
      match s.emit L opt (psent.take datalen.toNat) with
      | (s,.error e) => some (s,e)
      | (s,.ok answer) =>
        if answer.ref ≠ 0 then do
          let s := {s with ptrbuf := psent.drop datalen.toNat,cntr := length - datalen,err := answer.err}
          let s ← s.espconnDataSent (transmit L opt turns)
          some (s,if answer.err > 0 then espconnIf else answer.err)
        else some (s,espconnRte)

def espconnUdpSent (L : UdpStack) : Nat → List UInt8 → UInt16 → UdpMsg → Option (UdpMsg × Int) := transmit L .send
def espconnUdpSendto (L : UdpStack) : Nat → List UInt8 → UInt16 → UdpMsg → Option (UdpMsg × Int) := transmit L .sendto

def twice (L : UdpStack) (opt : SendOpt) (s : UdpMsg) : Bool := L.duplicates (s.aim opt).pcbIp

def width (twice : Bool) : Nat := if twice then 2 else 1

def emits (twice : Bool) (s : UdpMsg) (data : List UInt8) : List Datagram :=
  if twice then [⟨some .sta,s.remoteIp,s.remotePort16,data⟩,⟨some .ap,s.remoteIp,s.remotePort16,data⟩]
  else [⟨s.netifDefault,s.remoteIp,s.remotePort16,data⟩]

def goes (L : UdpStack) (twice : Bool) (i : Nat) : Bool := L.pbufAlloc i && (!twice || L.pbufAlloc (i + 1))

section Emit
variable {L : UdpStack} {opt : SendOpt} {s : UdpMsg} {data : List UInt8}

@[simp] theorem aim_fields : (s.aim opt).remoteIp = s.remoteIp ∧ (s.aim opt).remotePort = s.remotePort ∧
    (s.aim opt).netifDefault = s.netifDefault ∧ (s.aim opt).allocs = s.allocs ∧ (s.aim opt).sends = s.sends ∧
    (s.aim opt).sent = s.sent ∧ (s.aim opt).called = s.called ∧ (s.aim opt).sentCallback = s.sentCallback := by
  cases opt <;> exact ⟨rfl,rfl,rfl,rfl,rfl,rfl,rfl,rfl⟩

theorem emit_goes (going : goes L (s.twice L opt) s.allocs = true) :
    s.emit L opt data = ({s.aim opt with
      netifDefault := if s.twice L opt then some .ap else s.netifDefault,
      allocs := s.allocs + width (s.twice L opt),
      sends := s.sends + width (s.twice L opt),
      sent := s.sent ++ s.emits (s.twice L opt) data},.ok (L.udpSend (s.sends + width (s.twice L opt) - 1))) := by
  have first : L.pbufAlloc s.allocs = true := by
    unfold goes at going
    exact (Bool.and_eq_true_iff.mp going).1
  unfold emit pbufAlloc
  cases two : s.twice L opt with
  | false =>
    cases opt with
    | sendto =>
      have once : L.duplicates s.pcbIp = false := two
      simp [first,once,handOver,udpSendto,aim,remotePort16,emits,width]
    | send =>
      have once : L.duplicates s.remoteIp = false := two
      simp [first,once,handOver,udpSend,udpSendto,aim,remotePort16,emits,width]
  | true =>
    have second : L.pbufAlloc (s.allocs + 1) = true := by
      simpa [goes,two,first] using going
    cases opt with
    | sendto =>
      have again : L.duplicates s.pcbIp = true := two
      simp [first,second,again,handOver,udpSendto,aim,remotePort16,emits,width]
    | send =>
      have again : L.duplicates s.remoteIp = true := two
      simp [first,second,again,handOver,udpSend,udpSendto,aim,remotePort16,emits,width]

theorem emit_stops (data : List UInt8) (stuck : goes L (s.twice L opt) s.allocs = false) :
    ∃ s' e, s.emit L opt data = (s',.error e) ∧ e ≠ espconnOk ∧ s'.sent = s.sent ∧ s'.sends = s.sends ∧ s'.called = s.called ∧
      s'.netifDefault = s.netifDefault ∧ (s.twice L opt = false → s'.allocs = s.allocs + 1) ∧
      ∃ i, s.allocs ≤ i ∧ i < s'.allocs ∧ L.pbufAlloc i = false := by
  unfold emit pbufAlloc
  cases first : L.pbufAlloc s.allocs with
  | false => exact ⟨_,_,rfl,by decide,rfl,rfl,rfl,rfl,fun _ => rfl,s.allocs,Nat.le_refl _,Nat.lt_succ_self _,first⟩
  | true =>
    have two : s.twice L opt = true ∧ L.pbufAlloc (s.allocs + 1) = false := by
      simpa [goes,first] using stuck
    obtain ⟨two,second⟩ := two
    cases opt with
    | sendto =>
      have again : L.duplicates s.pcbIp = true := two
      simp only [again,second,aim,if_true]
      exact ⟨_,_,rfl,by decide,rfl,rfl,rfl,rfl,fun once => (by rw [two] at once; cases once),s.allocs + 1,by omega,by simp,second⟩
    | send =>
      have again : L.duplicates s.remoteIp = true := two
      simp only [again,second,aim,if_true]
      exact ⟨_,_,rfl,by decide,rfl,rfl,rfl,rfl,fun once => (by rw [two] at once; cases once),s.allocs + 1,by omega,by simp,second⟩

end Emit

structure Course (L : UdpStack) (opt : SendOpt) (s : UdpMsg) (data : List UInt8) (k : Nat) (s' : UdpMsg) (result : Int) (m : Nat) : Prop where
  reached : m ≤ k
  going : ∀ j < m, goes L (s.twice L opt) (s.allocs + width (s.twice L opt) * j) = true
  stuck : m < k → goes L (s.twice L opt) (s.allocs + width (s.twice L opt) * m) = false
  sent : s'.sent = s.sent ++ (List.range m).flatMap fun j => s.emits (s.twice L opt) (piece 1472 data j)
  sends : s'.sends = s.sends + width (s.twice L opt) * m
  allocs : s.twice L opt = false → s'.allocs = s.allocs + min (m + 1) k
  short : m < k → ∃ i, s.allocs ≤ i ∧ i < s'.allocs ∧ L.pbufAlloc i = false
  called : s'.called = s.called + if m = k ∧ (L.udpSend (s.sends + width (s.twice L opt) * k - 1)).err = 0 ∧ s.sentCallback = true then 1 else 0
  netif : s'.netifDefault = if s.twice L opt = true ∧ 0 < m then some .ap else s.netifDefault
  none : m = 0 → result ≠ espconnOk
  some : 0 < m → (result = espconnOk ↔ (L.udpSend (s.sends + width (s.twice L opt) - 1)).err = 0)

section Course
variable {L : UdpStack} {opt : SendOpt} {s s' : UdpMsg} {data : List UInt8} {length : UInt16} {turns k m : Nat} {result : Int}

theorem code_ok (err : Int) : (if err > 0 then espconnIf else err) = espconnOk ↔ err = 0 := by
  split_ifs with positive
  · exact iff_of_false (by decide) (by omega)
  · exact Iff.rfl

theorem datalen_toNat (length : UInt16) :
    (if ipFragMaxMtu - 20 - 8 < length then ipFragMaxMtu - 20 - 8 else length).toNat = min 1472 length.toNat := by
  have mtu : (ipFragMaxMtu - 20 - 8).toNat = 1472 := rfl
  split_ifs with long
  · have more := UInt16.lt_iff_toNat_lt.mp long
    omega
  · have less := UInt16.lt_iff_toNat_lt.not.mp long
    omega

theorem transmit_stops (data : List UInt8) (some : length ≠ 0) (stuck : goes L (s.twice L opt) s.allocs = false) (positive : 0 < k) :
    ∃ s' result, (∀ turns, k < turns → transmit L opt turns data length s = Option.some (s',result)) ∧
      Course L opt s data k s' result 0 := by
  obtain ⟨s',e,ran,failed,sent,sends,called,netif,allocs,short⟩ :=
    emit_stops (data.take (if ipFragMaxMtu - 20 - 8 < length then ipFragMaxMtu - 20 - 8 else length).toNat) stuck
  refine ⟨s',e,fun turns enough => ?_,⟨Nat.zero_le k,by simp,fun _ => by simpa using stuck,by simpa using sent,by simpa using sends,
    fun once => ?_,fun _ => short,?_,by simpa using netif,fun _ => failed,by simp⟩⟩
  · obtain ⟨turns,rfl⟩ := Nat.exists_eq_add_one_of_ne_zero (by omega : turns ≠ 0)
    unfold transmit
    rw [if_neg some]
    dsimp only
    rw [ran]
  · rw [allocs once]
    omega
  · rw [called,if_neg (by omega)]
    rfl

def behind (L : UdpStack) (opt : SendOpt) (s : UdpMsg) (data : List UInt8) (length : UInt16) : UdpMsg :=
  {s.aim opt with
    netifDefault := if s.twice L opt then some .ap else s.netifDefault
    allocs := s.allocs + width (s.twice L opt)
    sends := s.sends + width (s.twice L opt)
    sent := s.sent ++ s.emits (s.twice L opt) (data.take 1472)
    ptrbuf := data.drop (min 1472 length.toNat)
    cntr := length - (if ipFragMaxMtu - 20 - 8 < length then ipFragMaxMtu - 20 - 8 else length)
    err := (L.udpSend (s.sends + width (s.twice L opt) - 1)).err}

theorem transmit_goes (whole : data.length = length.toNat) (some : length ≠ 0) (going : goes L (s.twice L opt) s.allocs = true)
    (turns : Nat) : transmit L opt (turns + 1) data length s =
      ((s.behind L opt data length).espconnDataSent (transmit L opt turns)).map fun s' =>
        (s',if (L.udpSend (s.sends + width (s.twice L opt) - 1)).err > 0 then espconnIf
          else (L.udpSend (s.sends + width (s.twice L opt) - 1)).err) := by
  have first : data.take (min 1472 length.toNat) = data.take 1472 := List.take_eq_take_iff.mpr (by omega)
  unfold transmit
  rw [if_neg some]
  dsimp only
  rw [datalen_toNat,first,emit_goes going]
  dsimp only
  rw [if_pos (L.udpSend _).held]
  unfold behind
  cases espconnDataSent _ _ <;> rfl

theorem emits_behind (twice : Bool) (piece : List UInt8) (once : twice = s.twice L opt) :
    (s.behind L opt data length).emits twice piece = s.emits twice piece := by
  subst once
  unfold behind emits
  cases two : s.twice L opt <;> cases opt <;> simp [aim,remotePort16]

theorem twice_behind : (s.behind L opt data length).twice L opt = s.twice L opt := by
  cases opt <;> rfl

theorem behind_callback : (s.behind L opt data length).sentCallback = s.sentCallback := by
  cases opt <;> rfl

theorem behind_called : (s.behind L opt data length).called = s.called := by
  cases opt <;> rfl

theorem behind_cntr : (s.behind L opt data length).cntr.toNat = length.toNat - 1472 := by
  have less : min 1472 length.toNat ≤ length.toNat := Nat.min_le_right _ _
  unfold behind
  dsimp only
  rw [UInt16.toNat_sub_of_le,datalen_toNat]
  · omega
  · rw [UInt16.le_iff_toNat_le,datalen_toNat]
    exact less

def concluded (s : UdpMsg) : UdpMsg :=
  {s with state := .connect,called := s.called + if s.err = 0 ∧ s.sentCallback = true then 1 else 0}

theorem dataSent_last {again : List UInt8 → UInt16 → UdpMsg → Option (UdpMsg × Int)} (ended : s.cntr = 0) :
    s.espconnDataSent again = some s.concluded := by
  unfold espconnDataSent concluded espconnDataSentcb
  rw [if_pos ended]
  by_cases well : s.err = 0 <;> by_cases callback : s.sentCallback = true <;> simp [well,callback]

theorem transmit_last (whole : data.length = length.toNat) (some : length ≠ 0) (going : goes L (s.twice L opt) s.allocs = true)
    (short : data.length ≤ 1472) : ∃ s' result, (∀ turns, 1 < turns → transmit L opt turns data length s = Option.some (s',result)) ∧
      Course L opt s data 1 s' result 1 := by
  have ended : (s.behind L opt data length).cntr = 0 := by
    rw [←UInt16.toNat_inj,behind_cntr]
    change length.toNat - 1472 = 0
    omega
  refine ⟨(s.behind L opt data length).concluded,_,fun turns enough => ?_,
    ⟨Nat.le_refl 1,?_,by simp,?_,?_,?_,by simp,?_,?_,by simp,fun _ => code_ok _⟩⟩
  · obtain ⟨turns,rfl⟩ := Nat.exists_eq_add_one_of_ne_zero (by omega : turns ≠ 0)
    rw [transmit_goes whole some going,dataSent_last ended]
    rfl
  · intro j small
    obtain rfl : j = 0 := by omega
    simpa using going
  · simp [concluded,behind]
  · simp [concluded,behind]
  · intro once
    simp [concluded,behind,once,width]
  · unfold concluded
    rw [behind_callback,behind_called]
    simp [behind]
  · simp [concluded,behind]

theorem Course.followed {rest : List UInt8} (isRest : rest = data.drop 1472)
    (going : goes L (s.twice L opt) s.allocs = true) (course : Course L opt (s.behind L opt data length) rest k s' result' m)
    (isResult : result = espconnOk ↔ (L.udpSend (s.sends + width (s.twice L opt) - 1)).err = 0) :
    Course L opt s data (k + 1) s' result (m + 1) := by
  have allocs : (s.behind L opt data length).allocs = s.allocs + width (s.twice L opt) := rfl
  have sends : (s.behind L opt data length).sends = s.sends + width (s.twice L opt) := rfl
  have shift (n j : Nat) : n + width (s.twice L opt) * (j + 1) = n + width (s.twice L opt) + width (s.twice L opt) * j := by
    rw [Nat.mul_succ]
    omega
  obtain ⟨reached,goings,stuck,sent,sends',allocs',short,called,netif,_,_⟩ := course
  rw [twice_behind,allocs] at goings stuck
  rw [twice_behind] at sent sends' allocs' called netif
  rw [behind_callback,behind_called,sends] at called
  refine ⟨by omega,?_,?_,?_,?_,?_,?_,?_,?_,by simp,fun _ => isResult⟩
  · intro j small
    cases j with
    | zero => simpa using going
    | succ j =>
      rw [shift]
      exact goings j (by omega)
  · intro short
    rw [shift]
    exact stuck (by omega)
  · have later (j : Nat) : (s.behind L opt data length).emits (s.twice L opt) (piece 1472 rest j) =
        s.emits (s.twice L opt) (piece 1472 data (j + 1)) := by
      rw [emits_behind _ _ rfl,piece_succ,isRest]
    rw [sent,List.range_succ_eq_map,List.flatMap_cons,List.flatMap_map,piece_zero]
    simp only [later]
    simp [behind]
  · rw [sends',sends,shift]
  · intro once
    rw [allocs' once,allocs,once]
    unfold width
    simp only [Bool.false_eq_true,if_false]
    omega
  · intro some
    obtain ⟨i,after,before,failed⟩ := short (by omega)
    exact ⟨i,by omega,before,failed⟩
  · rw [called,shift]
    simp only [Nat.add_right_cancel_iff]
  · rw [netif]
    cases two : s.twice L opt <;> simp [UdpMsg.behind,two]

theorem transmit_course (opt : SendOpt) (whole : data.length = length.toNat) (some : length ≠ 0) (count : pieces 1472 data.length = k) :
    ∃ s' result m, (∀ turns, k < turns → transmit L opt turns data length s = Option.some (s',result)) ∧
      Course L opt s data k s' result m := by
  have positive : 0 < length.toNat := Nat.pos_of_ne_zero fun none => some (UInt16.toNat_inj.mp none)
  induction k generalizing data length s with
  | zero =>
    have covered := pieces_covers (by decide : 0 < 1472) data.length
    omega
  | succ k ih =>
    cases going : goes L (s.twice L opt) s.allocs with
    | false =>
      obtain ⟨s',result,ran,course⟩ := transmit_stops data some going (Nat.succ_pos k)
      exact ⟨s',result,0,ran,course⟩
    | true =>
      by_cases short : data.length ≤ 1472
      · obtain rfl : k = 0 := by
          rw [pieces_last (by omega) short] at count
          omega
        obtain ⟨s',result,ran,course⟩ := transmit_last whole some going short
        exact ⟨s',result,1,ran,course⟩
      · have cntr : (s.behind L opt data length).cntr.toNat = length.toNat - 1472 := behind_cntr
        have left : min 1472 length.toNat = 1472 := by omega
        have onward : (s.behind L opt data length).cntr ≠ 0 := by
          intro none
          rw [none] at cntr
          change 0 = _ at cntr
          omega
        have step := pieces_step (by decide : 0 < 1472) (by omega : 1472 < data.length)
        have rest : (data.drop 1472).length = (s.behind L opt data length).cntr.toNat := by
          rw [cntr,List.length_drop]
          omega
        obtain ⟨s',result,m,ran,course⟩ := ih (s:=s.behind L opt data length) rest onward (by rw [List.length_drop]; omega) (by omega)
        refine ⟨s',_,m + 1,fun turns enough => ?_,course.followed rfl going (code_ok _)⟩
        obtain ⟨turns,rfl⟩ := Nat.exists_eq_add_one_of_ne_zero (by omega : turns ≠ 0)
        rw [transmit_goes whole some going]
        unfold espconnDataSent
        rw [if_neg onward]
        change (((transmit L opt turns (data.drop (min 1472 length.toNat)) _ _).map Prod.fst).map _) = _
        rw [left,ran turns (by omega)]
        rfl

end Course

end UdpMsg
end NonosLinkLayer.Espconn
