import NonosLinkLayer.Dhcps.Updates

namespace NonosLinkLayer.Dhcps
open ByteMemory

def dhcpDiscover : UInt16 := 1
def dhcpRequest : UInt16 := 3
def dhcpDecline : UInt16 := 4
def dhcpRelease : UInt16 := 7
def dhcpOffer : UInt8 := 2
def dhcpAck : UInt8 := 5
def dhcpNak : UInt8 := 6

def dhcpOptionSubnetMask : UInt8 := 1
def dhcpOptionRouter : UInt8 := 3
def dhcpOptionDnsServer : UInt8 := 6
def dhcpOptionInterfaceMtu : UInt8 := 26
def dhcpOptionBroadcastAddress : UInt8 := 28
def dhcpOptionPerformRouterDiscovery : UInt8 := 31
def dhcpOptionReqIpaddr : UInt8 := 50
def dhcpOptionLeaseTime : UInt8 := 51
def dhcpOptionMsgType : UInt8 := 53
def dhcpOptionServerId : UInt8 := 54
def dhcpOptionEnd : UInt8 := 255

def magicCookie : UInt32 := 0x63538263

-- struct dhcps_msg: its size, where its options are, and the fields that are read.
def dhcpsMsgSize : Nat := 548
def optionsAt : Nat := 236
def ciaddr (m : Memory) : UInt32 := read32 m 12
def yiaddr (m : Memory) : UInt32 := read32 m 16
def chaddr (m : Memory) : Mac := #v[m 28,m 29,m 30,m 31,m 32,m 33]

inductive Answer where
  | offer
  | ack
  | nak
  | idle
  | release
  deriving DecidableEq, Repr

structure Options where
  type : UInt16
  state : Answer
  deriving DecidableEq, Repr

def Options.turn (o : Options) (client : UInt32) (m : Memory) (optptr : Nat) : Options :=
  if m optptr = dhcpOptionMsgType then {o with type := (m (optptr+2)).toUInt16}
  else if m optptr = dhcpOptionReqIpaddr then
    if read32 m (optptr+2) = client then {o with state := .ack} else {o with state := .nak}
  else o

-- Every turn goes on by two bytes at least, so that there are no more turns than bytes.
def optionsLoop (client : UInt32) (m : Memory) (fin : Int) : Nat → Nat → Options → Options
  | 0,_,o => o
  | turns+1,optptr,o =>
    if (optptr : Int) < fin then
      if m optptr = dhcpOptionEnd then o
      else optionsLoop client m fin turns (optptr + (m (optptr+1)).toNat + 2) (o.turn client m optptr)
    else o

def Options.answer (o : Options) (renew : Bool) : Answer :=
  if o.type = dhcpDiscover then .offer
  else if o.type = dhcpRequest then
    if o.state = .ack ∨ o.state = .nak then o.state
    else if renew then .ack
    else .nak
  else if o.type = dhcpDecline then .idle
  else if o.type = dhcpRelease then .release
  else o.state

def parseOptions (clientAddress : UInt32) (renew : Bool) (m : Memory) (optptr : Nat) (len : Int16) : Answer :=
  (optionsLoop clientAddress m (optptr + len.toInt) len.toInt.toNat optptr ⟨0,.idle⟩).answer renew

-- The server with the variable the address of the last client is in.
structure Daemon where
  server : Server
  clientAddress : UInt32
  deriving DecidableEq, Repr

-- Without the cookie the answer is 0, which is no state.
def parseMsg (d : Daemon) (m : Memory) (len : UInt16) : Daemon × Option Answer :=
  if read32 m optionsAt = magicCookie then
    let ip := ciaddr m
    let (server,clientAddress) := wifiSoftapDhcpsClientUpdate d.server (some (chaddr m)) (some ip)
    let ret := parseOptions clientAddress server.renew m (optionsAt + 4) len.toInt16
    if ret = .release then (⟨wifiSoftapDhcpsClientLeave server (some (chaddr m)) (some ip) true,ip⟩,some ret)
    else (⟨server,clientAddress⟩,some ret)
  else (d,none)

-- What the server tells of itself and of its interface.
structure Settings where
  serverAddress : UInt32
  dnsAddress : UInt32
  netmask : UInt32
  gw : UInt32
  offer : UInt8

def offerRouter : UInt8 := 1

def createMsg (clientAddress : UInt32) (m : Memory) : Memory :=
  let m := write m 0 [2,1,6,0]
  let m := write m 8 [0,0]
  let m := write m 10 (bytes16 (swap16 0x8000))
  let m := write m 16 (bytes32 clientAddress)
  let m := write m 12 (List.replicate 4 0)
  let m := write m 20 (List.replicate 4 0)
  let m := write m 24 (List.replicate 4 0)
  let m := write m 44 (List.replicate 64 0)
  let m := write m 108 (List.replicate 128 0)
  let m := write m optionsAt (List.replicate 312 0)
  write m optionsAt (bytes32 magicCookie)

def addOfferOptions (settings : Settings) (dhcpsLeaseTime : UInt32) : List UInt8 :=
  [dhcpOptionSubnetMask,4] ++ bytes32 settings.netmask ++
  [dhcpOptionLeaseTime,4] ++ (bytes32 (dhcpsLeaseTime * 60)).reverse ++
  [dhcpOptionServerId,4] ++ bytes32 settings.serverAddress ++
  (if settings.offer &&& offerRouter ≠ 0 then [dhcpOptionRouter,4] ++ bytes32 settings.gw else []) ++
  [dhcpOptionDnsServer,4] ++ bytes32 (if settings.dnsAddress = 0 then settings.serverAddress else settings.dnsAddress) ++
  [dhcpOptionBroadcastAddress,4] ++ (bytes32 settings.serverAddress).take 3 ++ [255] ++
  [dhcpOptionInterfaceMtu,2,0x02,0x40] ++
  [dhcpOptionPerformRouterDiscovery,1,0x00]

-- The body the three send functions share, with the buffers they need at hand.
def sendMsg (d : Daemon) (m : Memory) (type : UInt8) (options : List UInt8) : Memory :=
  write (createMsg d.clientAddress m) (optionsAt + 4) ([dhcpOptionMsgType,1,type] ++ options ++ [dhcpOptionEnd])

def sendOffer (settings : Settings) (d : Daemon) (m : Memory) : Memory :=
  sendMsg d m dhcpOffer (addOfferOptions settings d.server.dhcpsLeaseTime)

def sendAck (settings : Settings) (d : Daemon) (m : Memory) : Memory :=
  sendMsg d m dhcpAck (addOfferOptions settings d.server.dhcpsLeaseTime)

def sendNak (d : Daemon) (m : Memory) : Memory := sendMsg d m dhcpNak []

-- A chain of segments: the payload of the first, and those behind it, which
-- tot_len counts in sixteen bits.
structure Pbuf where
  payload : List UInt8
  next : List (List UInt8)
  counted : payload.length + next.flatten.length < 65536

def Pbuf.totLen (p : Pbuf) : UInt16 := UInt16.ofNat (p.payload.length + p.next.flatten.length)

-- The message as handle_dhcp copies it, over zeros, from the first two segments.
-- Behind the buffer is the heap.
def copyMsg (heap : Memory) (p : Pbuf) : Memory :=
  let m := write (fun pos => if pos < dhcpsMsgSize then 0 else heap pos) 0 p.payload
  match p.next with
  | [] => m
  | next :: _ => write m p.payload.length next

def Daemon.send (settings : Settings) (d : Daemon) (m : Memory) : Option Answer → Option (Answer × Memory)
  | some .offer => some (.offer,sendOffer settings d m)
  | some .ack => some (.ack,sendAck settings d m)
  | some .nak => some (.nak,sendNak d m)
  | _ => none

def handleDhcp (settings : Settings) (heap : Memory) (d : Daemon) (p : Pbuf) : Daemon × Option (Answer × Memory) :=
  let tlen := p.totLen.toInt16
  let m := copyMsg heap p
  let (d,state) := parseMsg d m (tlen - 240).toUInt16
  (d,d.send settings m state)

-- The length of the options, which turns negative from 33008 bytes on as it does below 240.
def Pbuf.optionsLen (p : Pbuf) : Int16 := p.totLen.toInt16 - 240

def replied (reply : Option (Answer × Memory)) : Option (Answer × UInt32) := reply.map fun r => (r.1,yiaddr r.2)

def visited (m : Memory) (fin : Int) : Nat → Nat → List Nat
  | 0,_ => []
  | turns+1,optptr =>
    if (optptr : Int) < fin then
      if m optptr = dhcpOptionEnd then []
      else optptr :: visited m fin turns (optptr + (m (optptr+1)).toNat + 2)
    else []

structure Reading where
  type : UInt16
  requested : Option UInt32
  deriving DecidableEq, Repr

def Reading.turn (m : Memory) (r : Reading) (optptr : Nat) : Reading :=
  if m optptr = dhcpOptionMsgType then {r with type := (m (optptr+2)).toUInt16}
  else if m optptr = dhcpOptionReqIpaddr then {r with requested := some (read32 m (optptr+2))}
  else r

def reading (m : Memory) (len : Int16) : Reading :=
  (visited m (optionsAt + 4 + len.toInt) len.toInt.toNat (optionsAt + 4)).foldl (Reading.turn m) ⟨0,none⟩

def found (m : Memory) (optptr : Nat) (len : Int16) : Reading :=
  (visited m (optptr + len.toInt) len.toInt.toNat optptr).foldl (Reading.turn m) ⟨0,none⟩

def Reading.answer (r : Reading) (clientAddress : UInt32) (renew : Bool) : Answer :=
  if r.type = dhcpDiscover then .offer
  else if r.type = dhcpDecline then .idle
  else if r.type = dhcpRelease then .release
  else
    match r.requested with
    | some addr => if addr = clientAddress then .ack else .nak
    | none => if r.type = dhcpRequest then if renew then .ack else .nak else .idle

section Reading
variable {m : Memory} {client : UInt32} {fin : Int} {turns optptr : Nat} {r : Reading}

def Reading.state (r : Reading) (client : UInt32) : Answer :=
  match r.requested with
  | some addr => if addr = client then .ack else .nak
  | none => .idle

theorem turn_reading : (Options.mk r.type (r.state client)).turn client m optptr =
    ⟨(r.turn m optptr).type,(r.turn m optptr).state client⟩ := by
  unfold Options.turn Reading.turn
  by_cases type : m optptr = dhcpOptionMsgType
  · rw [if_pos type,if_pos type]
    rfl
  · rw [if_neg type,if_neg type]
    by_cases requested : m optptr = dhcpOptionReqIpaddr
    · rw [if_pos requested,if_pos requested]
      by_cases same : read32 m (optptr+2) = client <;> simp [Reading.state,same]
    · rw [if_neg requested,if_neg requested]

theorem optionsLoop_reading : optionsLoop client m fin turns optptr ⟨r.type,r.state client⟩ =
    ⟨((visited m fin turns optptr).foldl (Reading.turn m) r).type,
      ((visited m fin turns optptr).foldl (Reading.turn m) r).state client⟩ := by
  induction turns generalizing optptr r with
  | zero => rfl
  | succ turns ih =>
    unfold optionsLoop visited
    by_cases inside : (optptr : Int) < fin
    · rw [if_pos inside,if_pos inside]
      by_cases last : m optptr = dhcpOptionEnd
      · rw [if_pos last,if_pos last]
        rfl
      · rw [if_neg last,if_neg last,turn_reading,ih]
        rfl
    · rw [if_neg inside,if_neg inside]
      rfl

theorem parseOptions_found (client : UInt32) (renew : Bool) (m : Memory) (optptr : Nat) (len : Int16) :
    parseOptions client renew m optptr len = (found m optptr len).answer client renew := by
  have loop : optionsLoop client m (optptr + len.toInt) len.toInt.toNat optptr ⟨0,.idle⟩ =
      ⟨(found m optptr len).type,(found m optptr len).state client⟩ := optionsLoop_reading (r:=⟨0,none⟩)
  unfold parseOptions
  rw [loop]
  generalize found m optptr len = r
  have apart : dhcpRequest ≠ dhcpDecline ∧ dhcpRequest ≠ dhcpRelease := by decide
  unfold Options.answer Reading.answer Reading.state
  dsimp only
  cases r.requested with
  | none =>
    by_cases request : r.type = dhcpRequest
    · simp [request,apart]
    · simp [request]
  | some addr =>
    by_cases request : r.type = dhcpRequest
    · by_cases same : addr = client <;> simp [request,apart,same]
    · simp [request]

theorem parseOptions_reading (client : UInt32) (renew : Bool) (m : Memory) (len : Int16) :
    parseOptions client renew m (optionsAt + 4) len = (reading m len).answer client renew :=
  parseOptions_found client renew m (optionsAt + 4) len

-- With a turn for every two bytes the loop never stops for want of turns.
theorem optionsLoop_turns (more : Nat) (o : Options) (enough : fin ≤ optptr + 2 * turns) :
    optionsLoop client m fin (turns + more) optptr o = optionsLoop client m fin turns optptr o := by
  induction turns generalizing optptr o with
  | zero =>
    cases more with
    | zero => rfl
    | succ more =>
      rw [Nat.zero_add]
      unfold optionsLoop
      rw [if_neg (by omega)]
  | succ turns ih =>
    rw [Nat.succ_add,optionsLoop,optionsLoop]
    split_ifs with inside last
    · rfl
    · exact ih _ (by push_cast; omega)
    · rfl

theorem parseOptions_turns (renew : Bool) (len : Int16) (more : Nat) :
    (optionsLoop client m (optptr + len.toInt) (len.toInt.toNat + more) optptr ⟨0,.idle⟩).answer renew =
      parseOptions client renew m optptr len := by
  unfold parseOptions
  rw [optionsLoop_turns more ⟨0,.idle⟩ (by omega)]

theorem answer_release : r.answer client renew = .release ↔ r.type = dhcpRelease := by
  have apart : dhcpRelease ≠ dhcpDiscover ∧ dhcpRelease ≠ dhcpDecline := by decide
  unfold Reading.answer
  by_cases release : r.type = dhcpRelease
  · simp [release,apart]
  · refine iff_of_false ?_ release
    rw [if_neg release]
    cases r.requested with
    | some addr =>
      dsimp only
      split_ifs <;> simp
    | none => split_ifs <;> simp

-- A message with the cookie updates the pool first, and is answered as it reads
-- then. Only a release takes the lease away again.
theorem parseMsg_updated {d : Daemon} (single : Single d.server) (len : UInt16) (cookie : read32 m optionsAt = magicCookie) :
    ∃ plist got renew, Updated d.server (chaddr m) (ciaddr m) plist got renew ∧ (plist.map DhcpsPool.mac).Nodup ∧
      parseMsg d m len =
        if (reading m len.toInt16).type = dhcpRelease then
          (⟨{d.server with plist := leaveLoop (chaddr m) (ciaddr m) true plist,renew := renew},ciaddr m⟩,some .release)
        else (⟨{d.server with plist := plist,renew := renew},got⟩,some ((reading m len.toInt16).answer got renew)) := by
  obtain ⟨plist,got,renew,ran,updated⟩ := update_updated single (chaddr m) (ciaddr m)
  have apart := step_single single (.update (some (chaddr m)) (some (ciaddr m))) rfl
  rw [ran] at apart
  refine ⟨plist,got,renew,updated,apart,?_⟩
  unfold parseMsg
  rw [if_pos cookie]
  dsimp only
  rw [ran]
  dsimp only
  rw [parseOptions_reading]
  by_cases release : (reading m len.toInt16).type = dhcpRelease
  · rw [if_pos release,answer_release.mpr release]
    rfl
  · rw [if_neg release,if_neg (answer_release.not.mpr release)]

end Reading

theorem read32_write_apart (apart : pos + 4 ≤ place ∨ place + bytes.length ≤ pos) :
    read32 (write m place bytes) pos = read32 m pos :=
  read32_congr fun k small => write_apart (by omega)

theorem createMsg_yiaddr (client : UInt32) (m : Memory) : yiaddr (createMsg client m) = client := by
  unfold yiaddr createMsg optionsAt
  dsimp only
  iterate 6 rw [read32_write_apart (.inl (by decide))]
  rw [read32_write_apart (.inr (by decide))]
  exact read32_write32 _ _ _

theorem sendMsg_yiaddr (d : Daemon) (m : Memory) (type : UInt8) (options : List UInt8) :
    yiaddr (sendMsg d m type options) = d.clientAddress := by
  unfold sendMsg yiaddr
  rw [read32_write_apart (.inl (by decide))]
  exact createMsg_yiaddr _ _

theorem replied_send (settings : Settings) (d : Daemon) (m : Memory) (state : Answer) :
    replied (d.send settings m (some state)) =
      if state = .idle ∨ state = .release then none else some (state,d.clientAddress) := by
  cases state with
  | offer => simp [Daemon.send,replied,sendOffer,sendMsg_yiaddr]
  | ack => simp [Daemon.send,replied,sendAck,sendMsg_yiaddr]
  | nak => simp [Daemon.send,replied,sendNak,sendMsg_yiaddr]
  | idle => rfl
  | release => rfl

theorem handleDhcp_replied (d : Daemon) (single : Single d.server) (settings : Settings) (heap : Memory) (p : Pbuf)
    (cookie : read32 (copyMsg heap p) optionsAt = magicCookie) :
    ∃ plist got renew, Updated d.server (chaddr (copyMsg heap p)) (ciaddr (copyMsg heap p)) plist got renew ∧
      ((reading (copyMsg heap p) p.optionsLen).type ≠ dhcpRelease →
        (handleDhcp settings heap d p).1.server = {d.server with plist := plist,renew := renew}) ∧
      replied (handleDhcp settings heap d p).2 =
        if (reading (copyMsg heap p) p.optionsLen).answer got renew = .idle ∨
          (reading (copyMsg heap p) p.optionsLen).answer got renew = .release then none
        else some ((reading (copyMsg heap p) p.optionsLen).answer got renew,got) := by
  have len : (p.totLen.toInt16 - 240).toUInt16.toInt16 = p.optionsLen := Int16.toInt16_toUInt16 _
  obtain ⟨plist,got,renew,updated,_,ran⟩ := parseMsg_updated single (p.totLen.toInt16 - 240).toUInt16 cookie
  rw [len] at ran
  refine ⟨plist,got,renew,updated,?_⟩
  unfold handleDhcp
  dsimp only
  rw [ran]
  by_cases release : (reading (copyMsg heap p) p.optionsLen).type = dhcpRelease
  · rw [if_pos release,if_pos (.inr (answer_release.mpr release))]
    exact ⟨fun other => absurd release other,rfl⟩
  · rw [if_neg release]
    exact ⟨fun _ => rfl,replied_send settings _ _ _⟩

theorem handleDhcp_silent (settings : Settings) (heap : Memory) (d : Daemon) (p : Pbuf)
    (cookie : read32 (copyMsg heap p) optionsAt ≠ magicCookie) : handleDhcp settings heap d p = (d,none) := by
  unfold handleDhcp parseMsg
  dsimp only
  rw [if_neg cookie]
  rfl

def message (ciaddr : UInt32) (mac : Mac) (options : List UInt8) : List UInt8 :=
  List.replicate 12 0 ++ bytes32 ciaddr ++ List.replicate 12 0 ++ mac.toList ++ List.replicate 202 0 ++
    bytes32 magicCookie ++ options

theorem message_length {options : List UInt8} : (message addr mac options).length = 240 + options.length := by
  unfold message bytes32
  simp only [List.length_append,List.length_replicate,Vector.length_toList,List.length_cons,List.length_nil]

def datagram (ciaddr : UInt32) (mac : Mac) (options : List UInt8) (few : options.length < 256) : Pbuf :=
  ⟨message ciaddr mac options,[],by rw [message_length,List.flatten_nil,List.length_nil]; omega⟩

def discover (mac : Mac) : Pbuf := datagram 0 mac [dhcpOptionMsgType,1,1,dhcpOptionEnd] (by decide)

def accessPointSettings : Settings := ⟨0x0104a8c0,0,0x00ffffff,0x0104a8c0,255⟩

end NonosLinkLayer.Dhcps
