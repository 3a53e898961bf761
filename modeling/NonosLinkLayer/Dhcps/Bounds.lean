import NonosLinkLayer.Dhcps.Messages

namespace NonosLinkLayer.Dhcps
open ByteMemory

-- The code of Messages with every byte that is written checked against the
-- buffer, and every byte of the options that is read against `limit`. It stops
-- at the first byte that is not inside.
def copyLoopWithin (m : Memory) (cnt : Nat) : List UInt8 → Option Memory
  | [] => some m
  | b :: rest => if cnt < dhcpsMsgSize then copyLoopWithin (Function.update m cnt b) (cnt+1) rest else none

def copyMsgWithin (heap : Memory) (p : Pbuf) : Option Memory := do
  let m ← copyLoopWithin (fun pos => if pos < dhcpsMsgSize then 0 else heap pos) 0 p.payload
  match p.next with
  | [] => some m
  | next :: _ => copyLoopWithin m p.payload.length next

def Options.turnWithin (o : Options) (client : UInt32) (m : Memory) (limit optptr : Nat) : Option Options :=
  if m optptr = dhcpOptionMsgType then
    if optptr + 2 < limit then some {o with type := (m (optptr+2)).toUInt16} else none
  else if m optptr = dhcpOptionReqIpaddr then
    if optptr + 5 < limit then
      if read32 m (optptr+2) = client then some {o with state := .ack} else some {o with state := .nak}
    else none
  else some o

def optionsLoopWithin (client : UInt32) (m : Memory) (limit : Nat) (fin : Int) : Nat → Nat → Options → Option Options
  | 0,_,o => some o
  | turns+1,optptr,o =>
    if (optptr : Int) < fin then
      if optptr < limit then
        if m optptr = dhcpOptionEnd then some o
        else do
          let o ← o.turnWithin client m limit optptr
          if optptr + 1 < limit then
            optionsLoopWithin client m limit fin turns (optptr + (m (optptr+1)).toNat + 2) o
          else none
      else none
    else some o

def parseOptionsWithin (clientAddress : UInt32) (renew : Bool) (m : Memory) (limit optptr : Nat) (len : Int16) :
    Option Answer := do
  let o ← optionsLoopWithin clientAddress m limit (optptr + len.toInt) len.toInt.toNat optptr ⟨0,.idle⟩
  some (o.answer renew)

def parseMsgWithin (d : Daemon) (m : Memory) (limit : Nat) (len : UInt16) : Option (Daemon × Option Answer) :=
  if read32 m optionsAt = magicCookie then do
    let ip := ciaddr m
    let (server,clientAddress) := wifiSoftapDhcpsClientUpdate d.server (some (chaddr m)) (some ip)
    let ret ← parseOptionsWithin clientAddress server.renew m limit (optionsAt + 4) len.toInt16
    if ret = .release then some (⟨wifiSoftapDhcpsClientLeave server (some (chaddr m)) (some ip) true,ip⟩,some ret)
    else some (⟨server,clientAddress⟩,some ret)
  else some (d,none)

-- The bytes of the options that are read have to be in the buffer, and in the datagram.
def handleDhcpWithin (settings : Settings) (heap : Memory) (d : Daemon) (p : Pbuf) :
    Option (Daemon × Option (Answer × Memory)) := do
  let tlen := p.totLen.toInt16
  let m ← copyMsgWithin heap p
  let (d,state) ← parseMsgWithin d m (min dhcpsMsgSize p.totLen.toNat) (tlen - 240).toUInt16
  some (d,d.send settings m state)

def room (code : UInt8) : Nat :=
  if code = dhcpOptionMsgType then 3 else if code = dhcpOptionReqIpaddr then 6 else 2

inductive Walks (m : Memory) (limit : Nat) (fin : Int) : Nat → Prop where
  | past {optptr : Nat} (behind : fin ≤ optptr) : Walks m limit fin optptr
  | last (inside : optptr < limit) (ends : m optptr = dhcpOptionEnd) : Walks m limit fin optptr
  | option (other : m optptr ≠ dhcpOptionEnd) (fits : optptr + room (m optptr) ≤ limit)
      (rest : Walks m limit fin (optptr + (m (optptr+1)).toNat + 2)) : Walks m limit fin optptr

-- The first two segments fit into the buffer, and so do the options of a message
-- with the cookie, in the datagram too.
structure Fits (heap : Memory) (p : Pbuf) : Prop where
  copied : p.payload.length + (p.next.headD []).length ≤ dhcpsMsgSize
  options : read32 (copyMsg heap p) optionsAt = magicCookie →
    Walks (copyMsg heap p) (min dhcpsMsgSize p.totLen.toNat) (optionsAt + 4 + p.optionsLen.toInt) (optionsAt + 4)

section Copy
variable {m : Memory} {bytes : List UInt8} {cnt : Nat}

theorem update_write (apart : pos < cnt) (b : UInt8) :
    write (Function.update m pos b) cnt bytes = Function.update (write m cnt bytes) pos b := by
  induction bytes generalizing cnt with
  | nil => rfl
  | cons c rest ih =>
    unfold write
    rw [ih (by omega),Function.update_comm (by omega)]

theorem copyLoopWithin_fits (start : cnt ≤ dhcpsMsgSize) :
    copyLoopWithin m cnt bytes = if cnt + bytes.length ≤ dhcpsMsgSize then some (write m cnt bytes) else none := by
  induction bytes generalizing m cnt with
  | nil => exact (if_pos (by simpa using start)).symm
  | cons b rest ih =>
    unfold copyLoopWithin
    by_cases inside : cnt < dhcpsMsgSize
    · rw [if_pos inside,ih (by omega),update_write (by omega),List.length_cons,Nat.add_right_comm,←Nat.add_assoc]
      rfl
    · rw [if_neg inside,if_neg]
      rw [List.length_cons]
      omega

theorem copyMsgWithin_fits (heap : Memory) (p : Pbuf) :
    copyMsgWithin heap p =
      if p.payload.length + (p.next.headD []).length ≤ dhcpsMsgSize then some (copyMsg heap p) else none := by
  unfold copyMsgWithin copyMsg
  rw [copyLoopWithin_fits (Nat.zero_le _),Nat.zero_add]
  by_cases first : p.payload.length ≤ dhcpsMsgSize
  · rw [if_pos first]
    cases p.next with
    | nil => exact (if_pos first).symm
    | cons next rest => exact copyLoopWithin_fits first
  · rw [if_neg first,if_neg (by omega)]
    rfl

end Copy

section Walks
variable {m : Memory} {limit optptr turns : Nat} {fin : Int} {client : UInt32} {o : Options}

theorem turnWithin_room (client : UInt32) (o : Options) (fits : optptr + room (m optptr) ≤ limit) :
    o.turnWithin client m limit optptr = some (o.turn client m optptr) ∧ optptr + 1 < limit := by
  unfold room at fits
  unfold Options.turnWithin Options.turn
  by_cases type : m optptr = dhcpOptionMsgType
  · rw [if_pos type] at fits
    rw [if_pos type,if_pos type,if_pos (by omega)]
    exact ⟨rfl,by omega⟩
  rw [if_neg type] at fits ⊢
  rw [if_neg type]
  by_cases requested : m optptr = dhcpOptionReqIpaddr
  · rw [if_pos requested] at fits ⊢
    rw [if_pos requested,if_pos (by omega)]
    refine ⟨?_,by omega⟩
    split_ifs <;> rfl
  · rw [if_neg requested] at fits ⊢
    rw [if_neg requested]
    exact ⟨rfl,by omega⟩

theorem turnWithin_some (turned : o.turnWithin client m limit optptr = some o') (next : optptr + 1 < limit) :
    optptr + room (m optptr) ≤ limit := by
  unfold Options.turnWithin at turned
  unfold room
  split_ifs at turned ⊢ <;> omega

theorem optionsLoopWithin_walks (enough : fin ≤ optptr + 2 * turns) (walks : Walks m limit fin optptr) :
    optionsLoopWithin client m limit fin turns optptr o = some (optionsLoop client m fin turns optptr o) := by
  induction turns generalizing optptr o with
  | zero => rfl
  | succ turns ih =>
    unfold optionsLoopWithin optionsLoop
    by_cases inside : (optptr : Int) < fin
    · rw [if_pos inside,if_pos inside]
      cases walks with
      | past behind => omega
      | last below ends => rw [if_pos below,if_pos ends,if_pos ends]
      | option other fits rest =>
        obtain ⟨turned,next⟩ := turnWithin_room client o fits
        rw [if_pos (by omega),if_neg other,if_neg other,turned]
        dsimp only [Option.bind_eq_bind,Option.bind_some]
        rw [if_pos next]
        exact ih (by push_cast; omega) rest
    · rw [if_neg inside,if_neg inside]

theorem walks_optionsLoopWithin (enough : fin ≤ optptr + 2 * turns)
    (ran : optionsLoopWithin client m limit fin turns optptr o = some o') : Walks m limit fin optptr := by
  induction turns generalizing optptr o with
  | zero => exact .past (by simpa using enough)
  | succ turns ih =>
    unfold optionsLoopWithin at ran
    by_cases inside : (optptr : Int) < fin
    · rw [if_pos inside] at ran
      by_cases below : optptr < limit
      · rw [if_pos below] at ran
        by_cases ends : m optptr = dhcpOptionEnd
        · exact .last below ends
        · rw [if_neg ends] at ran
          obtain ⟨o₁,turned,ran⟩ := Option.bind_eq_some_iff.mp ran
          by_cases next : optptr + 1 < limit
          · rw [if_pos next] at ran
            exact .option ends (turnWithin_some turned next) (ih (by push_cast; omega) ran)
          · rw [if_neg next] at ran
            cases ran
      · rw [if_neg below] at ran
        cases ran
    · exact .past (by omega)

end Walks

theorem parseOptionsWithin_walks (client : UInt32) (renew : Bool) (m : Memory) (limit : Nat) (len : Int16) :
    (Walks m limit (optionsAt + 4 + len.toInt) (optionsAt + 4) →
      parseOptionsWithin client renew m limit (optionsAt + 4) len = some (parseOptions client renew m (optionsAt + 4) len)) ∧
    (parseOptionsWithin client renew m limit (optionsAt + 4) len ≠ none →
      Walks m limit (optionsAt + 4 + len.toInt) (optionsAt + 4)) := by
  have enough : ((optionsAt + 4 : Nat) : Int) + len.toInt ≤ (optionsAt + 4 : Nat) + 2 * (len.toInt.toNat : Int) := by omega
  unfold parseOptionsWithin parseOptions
  constructor
  · intro walks
    rw [optionsLoopWithin_walks enough walks]
    rfl
  · intro some
    obtain ⟨a,ran⟩ := Option.ne_none_iff_exists'.mp some
    obtain ⟨o,ran,_⟩ := Option.bind_eq_some_iff.mp ran
    exact walks_optionsLoopWithin enough ran

theorem parseMsgWithin_walks (d : Daemon) (m : Memory) (limit : Nat) (len : UInt16) :
    ((read32 m optionsAt = magicCookie → Walks m limit (optionsAt + 4 + len.toInt16.toInt) (optionsAt + 4)) →
      parseMsgWithin d m limit len = some (parseMsg d m len)) ∧
    (parseMsgWithin d m limit len ≠ none → read32 m optionsAt = magicCookie →
      Walks m limit (optionsAt + 4 + len.toInt16.toInt) (optionsAt + 4)) := by
  unfold parseMsgWithin parseMsg
  by_cases cookie : read32 m optionsAt = magicCookie
  · rw [if_pos cookie,if_pos cookie]
    dsimp only
    generalize wifiSoftapDhcpsClientUpdate d.server (some (chaddr m)) (some (ciaddr m)) = updated
    obtain ⟨walked,walks⟩ := parseOptionsWithin_walks updated.2 updated.1.renew m limit len.toInt16
    constructor
    · intro fits
      rw [walked (fits cookie)]
      dsimp only [Option.bind_eq_bind,Option.bind_some]
      split_ifs <;> rfl
    · intro some _
      refine walks fun none => some ?_
      rw [none]
      rfl
  · rw [if_neg cookie,if_neg cookie]
    exact ⟨fun _ => rfl,fun _ same => absurd same cookie⟩

-- A message is handled inside its bounds exactly if it fits.
theorem message_inside (settings : Settings) (heap : Memory) (d : Daemon) (p : Pbuf) :
    handleDhcpWithin settings heap d p = some (handleDhcp settings heap d p) ↔ Fits heap p := by
  have len : (p.totLen.toInt16 - 240).toUInt16.toInt16 = p.optionsLen := Int16.toInt16_toUInt16 _
  obtain ⟨walked,walks⟩ :=
    parseMsgWithin_walks d (copyMsg heap p) (min dhcpsMsgSize p.totLen.toNat) (p.totLen.toInt16 - 240).toUInt16
  rw [len] at walked walks
  unfold handleDhcpWithin handleDhcp
  dsimp only
  rw [copyMsgWithin_fits]
  constructor
  · intro ran
    obtain ⟨m,copied,ran⟩ := Option.bind_eq_some_iff.mp ran
    split_ifs at copied with fits
    cases copied
    obtain ⟨r,parsed,_⟩ := Option.bind_eq_some_iff.mp ran
    exact ⟨fits,walks (Option.ne_none_iff_exists'.mpr ⟨r,parsed⟩)⟩
  · intro fits
    rw [if_pos fits.copied]
    dsimp only [Option.bind_eq_bind,Option.bind_some]
    rw [walked fits.options]
    rfl

-- One byte more than the buffer has, and a message type of which the datagram has the code only.
def overlong : Pbuf := ⟨List.replicate 549 0,[],by rw [List.length_replicate,List.flatten_nil,List.length_nil]; decide⟩
def cut : Pbuf := datagram 0 laptop [dhcpOptionMsgType] (by decide)

theorem message_outside :
    handleDhcpWithin accessPointSettings (fun _ => 0) ⟨accessPoint,0⟩ overlong ≠
      some (handleDhcp accessPointSettings (fun _ => 0) ⟨accessPoint,0⟩ overlong) ∧
    handleDhcpWithin accessPointSettings (fun _ => 0) ⟨accessPoint,0⟩ cut ≠
      some (handleDhcp accessPointSettings (fun _ => 0) ⟨accessPoint,0⟩ cut) := by
  have copied : (handleDhcpWithin accessPointSettings (fun _ => 0) ⟨accessPoint,0⟩ overlong).isNone = true := by decide +kernel
  have read : (handleDhcpWithin accessPointSettings (fun _ => 0) ⟨accessPoint,0⟩ cut).isNone = true := by decide +kernel
  rw [Option.isNone_iff_eq_none.mp copied,Option.isNone_iff_eq_none.mp read]
  exact ⟨(Option.some_ne_none _).symm,(Option.some_ne_none _).symm⟩

end NonosLinkLayer.Dhcps
