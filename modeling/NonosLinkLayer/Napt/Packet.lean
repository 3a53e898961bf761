import NonosLinkLayer.Napt.Data

namespace NonosLinkLayer.Napt
open ByteMemory

-- A packet is the memory from `p->payload` on, which points to the IP header.
abbrev Packet := Memory

def iphHl (p : Packet) : Nat := (p 0).toNat % 16
def iphProto (p : Packet) : UInt8 := p 9
def iphSrc (p : Packet) : UInt32 := read32 p 12
def iphDest (p : Packet) : UInt32 := read32 p 16

-- Where the TCP, UDP or ICMP header starts. `tcp_hdr` and `udp_hdr` both begin
-- with the source and the destination port.
def transport (p : Packet) : Nat := iphHl p * 4
def portSrc (p : Packet) : UInt16 := read16 p (transport p)
def portDest (p : Packet) : UInt16 := read16 p (transport p + 2)

def tcpFin : UInt8 := 0x01
def tcpSyn : UInt8 := 0x02
def tcpRst : UInt8 := 0x04
def tcpAck : UInt8 := 0x10
def tcphFlags (p : Packet) : UInt8 := p (transport p + 13) &&& 0x3f

def icmpEr : UInt8 := 0
def icmpEcho : UInt8 := 8
def iechoType (p : Packet) : UInt8 := p (transport p)
def iechoId (p : Packet) : UInt16 := read16 p (transport p + 4)

-- The two loops of checksumadjust. The lengths passed are even, so the bytes
-- come in pairs; `x` is an s32_t.
def takeOut (x : Int) : List (UInt8 × UInt8) → Int
  | [] => x
  | (high,low) :: rest =>
    let x := x - (high.toNat * 256 + low.toNat)
    takeOut (if x ≤ 0 then (x - 1) % 0x10000 else x) rest

def putIn (x : Int) : List (UInt8 × UInt8) → Int
  | [] => x
  | (high,low) :: rest =>
    let x := x + (high.toNat * 256 + low.toNat)
    putIn (if x / 0x10000 % 2 = 1 then (x + 1) % 0x10000 else x) rest

def checksumadjust (p : Packet) (chksum : Nat) (optr nptr : List (UInt8 × UInt8)) : Packet :=
  let x : Int := (p chksum).toNat * 256 + (p (chksum+1)).toNat
  let x := putIn (takeOut (0xFFFF - x) optr) nptr
  let x := (0xFFFF - x) % 0x10000
  write p chksum [UInt8.ofNat (x / 256).toNat,UInt8.ofNat (x % 256).toNat]

def pairsAt (p : Packet) (pos : Nat) : Nat → List (UInt8 × UInt8)
  | 0 => []
  | n+1 => (p pos,p (pos+1)) :: pairsAt p (pos+2) n

def pairs : List UInt8 → List (UInt8 × UInt8)
  | high :: low :: rest => (high,low) :: pairs rest
  | _ => []

-- ip_napt_modify_port_tcp and ip_napt_modify_port_udp differ in where their
-- header keeps its checksum.
def modifyPort (chksum : Nat) (p : Packet) (hdr : Nat) (dest : Bool) (newval : UInt16) : Packet :=
  let field := if dest then hdr + 2 else hdr
  let p := checksumadjust p (hdr + chksum) (pairsAt p field 1) (pairs (bytes16 newval))
  write p field (bytes16 newval)

def modifyAddrIn (chksum : Nat) (p : Packet) (hdr field : Nat) (newval : UInt32) : Packet :=
  checksumadjust p (hdr + chksum) (pairsAt p field 2) (pairs (bytes32 newval))

def ipNaptModifyPortTcp := modifyPort 16
def ipNaptModifyAddrTcp := modifyAddrIn 16
def ipNaptModifyPortUdp := modifyPort 6
def ipNaptModifyAddrUdp := modifyAddrIn 6

def ipNaptModifyAddr (p : Packet) (field : Nat) (newval : UInt32) : Packet :=
  write (checksumadjust p 10 (pairsAt p field 2) (pairs (bytes32 newval))) field (bytes32 newval)

def rewriteTcp (p : Packet) (dest : Bool) (port : UInt16) (addr : UInt32) : Packet :=
  let tcphdr := transport p
  let field := if dest then 16 else 12
  let p := if port ≠ (if dest then portDest p else portSrc p) then ipNaptModifyPortTcp p tcphdr dest port else p
  let p := ipNaptModifyAddrTcp p tcphdr field addr
  ipNaptModifyAddr p field addr

def rewriteUdp (p : Packet) (dest : Bool) (port : UInt16) (addr : UInt32) : Packet :=
  let udphdr := transport p
  let field := if dest then 16 else 12
  let p := if port ≠ (if dest then portDest p else portSrc p) then ipNaptModifyPortUdp p udphdr dest port else p
  let p := ipNaptModifyAddrUdp p udphdr field addr
  ipNaptModifyAddr p field addr

-- An IP packet: its header is at least as long as one without options.
structure Datagram where
  packet : Packet
  whole : 5 ≤ iphHl packet

-- A header without options before its payload; whatever the code does not look
-- at is zero.
def Datagram.build (proto : UInt8) (src dest : UInt32) (payload : List UInt8) : Datagram where
  packet i := ([0x45,0,0,0,0,0,0,0,64,proto,0,0] ++ bytes32 src ++ bytes32 dest ++ payload).getD i 0
  whole := by simp [iphHl]

def Datagram.tcp (src : UInt32) (sport : UInt16) (dest : UInt32) (dport : UInt16) (flags : UInt8) : Datagram :=
  .build ipProtoTcp src dest (bytes16 sport ++ bytes16 dport ++ [0,0,0,0,0,0,0,0,0x50,flags])

def Datagram.udp (src : UInt32) (sport : UInt16) (dest : UInt32) (dport : UInt16) : Datagram :=
  .build ipProtoUdp src dest (bytes16 sport ++ bytes16 dport)

def Datagram.echo (type : UInt8) (src dest : UInt32) (id : UInt16) : Datagram :=
  .build ipProtoIcmp src dest ([type,0,0,0] ++ bytes16 id)

theorem Datagram.header (p : Datagram) : 20 ≤ transport p.packet := by
  have whole := p.whole
  unfold transport
  omega

section Tcp
variable (src dest : UInt32) (sport dport : UInt16) (flags : UInt8)

theorem tcp_transport : transport (Datagram.tcp src sport dest dport flags).packet = 20 := by
  have first : (Datagram.tcp src sport dest dport flags).packet 0 = 0x45 := rfl
  unfold transport iphHl
  rw [first]
  rfl

theorem tcp_proto : iphProto (Datagram.tcp src sport dest dport flags).packet = ipProtoTcp := rfl

theorem tcp_src : iphSrc (Datagram.tcp src sport dest dport flags).packet = src := by
  unfold iphSrc
  refine bytes32_inj ?_
  rw [bytes32_read32]
  rfl

theorem tcp_sport : portSrc (Datagram.tcp src sport dest dport flags).packet = sport := by
  unfold portSrc
  rw [tcp_transport]
  have small := sport.toNat_lt
  have low : (Datagram.tcp src sport dest dport flags).packet 20 = UInt8.ofNat sport.toNat := rfl
  have high : (Datagram.tcp src sport dest dport flags).packet 21 = UInt8.ofNat (sport.toNat / 256) := rfl
  apply UInt16.toNat_inj.mp
  simp only [read16,low,high,UInt8.toNat_ofNat',UInt16.toNat_ofNat']
  omega

theorem tcp_flags : tcphFlags (Datagram.tcp src sport dest dport flags).packet = flags &&& 0x3f := by
  unfold tcphFlags
  rw [tcp_transport]
  rfl

end Tcp

def rewrite (chksum : Nat) (p : Packet) (dest : Bool) (port : UInt16) (addr : UInt32) : Packet :=
  let hdr := transport p
  let field := if dest then 16 else 12
  let p := if port ≠ (if dest then portDest p else portSrc p) then modifyPort chksum p hdr dest port else p
  let p := modifyAddrIn chksum p hdr field addr
  ipNaptModifyAddr p field addr

theorem rewriteTcp_eq : rewriteTcp = rewrite 16 := rfl
theorem rewriteUdp_eq : rewriteUdp = rewrite 6 := rfl

section Frames
variable {p : Packet} {dest : Bool} {port : UInt16} {addr : UInt32} {chksum hdr field i : Nat}

theorem checksumadjust_frame (optr nptr : List (UInt8 × UInt8)) (apart : i < chksum ∨ chksum + 2 ≤ i) :
    checksumadjust p chksum optr nptr i = p i := by
  unfold checksumadjust
  exact write_apart apart

theorem modifyPort_frame (outside : i < hdr + chksum ∨ hdr + chksum + 2 ≤ i)
    (apart : i < (if dest then hdr + 2 else hdr) ∨ (if dest then hdr + 2 else hdr) + 2 ≤ i) :
    modifyPort chksum p hdr dest port i = p i := by
  unfold modifyPort
  rw [write_apart (by simpa [bytes16] using apart)]
  exact checksumadjust_frame _ _ outside

theorem modifyPort_written : read16 (modifyPort chksum p hdr dest port) (if dest then hdr + 2 else hdr) = port := by
  unfold modifyPort
  exact read16_write16 ..

theorem modifyAddrIn_frame (outside : i < hdr + chksum ∨ hdr + chksum + 2 ≤ i) :
    modifyAddrIn chksum p hdr field addr i = p i := by
  unfold modifyAddrIn
  exact checksumadjust_frame _ _ outside

theorem ipNaptModifyAddr_frame (outside : i < 10 ∨ 12 ≤ i) (apart : i < field ∨ field + 4 ≤ i) :
    ipNaptModifyAddr p field addr i = p i := by
  unfold ipNaptModifyAddr
  rw [write_apart (by simpa [bytes32] using apart)]
  exact checksumadjust_frame _ _ outside

theorem ipNaptModifyAddr_written : read32 (ipNaptModifyAddr p field addr) field = addr := by
  unfold ipNaptModifyAddr
  exact read32_write32 ..

theorem rewrite_frame (ipSum : i < 10 ∨ 12 ≤ i)
    (ipAddr : i < (if dest then 16 else 12) ∨ (if dest then 16 else 12) + 4 ≤ i)
    (sum : i < transport p + chksum ∨ transport p + chksum + 2 ≤ i)
    (apart : i < (if dest then transport p + 2 else transport p) ∨
      (if dest then transport p + 2 else transport p) + 2 ≤ i) :
    rewrite chksum p dest port addr i = p i := by
  unfold rewrite
  rw [ipNaptModifyAddr_frame ipSum ipAddr,modifyAddrIn_frame sum]
  split_ifs
  · exact modifyPort_frame sum (by assumption)
  · rfl
  · exact modifyPort_frame sum (by assumption)
  · rfl

theorem rewrite_address : read32 (rewrite chksum p dest port addr) (if dest then 16 else 12) = addr := by
  unfold rewrite
  exact ipNaptModifyAddr_written

-- The header of a whole packet ends before its transport header starts.
theorem rewrite_port (whole : 20 ≤ transport p) (far : 4 ≤ chksum) :
    read16 (rewrite chksum p dest port addr) (if dest then transport p + 2 else transport p) = port := by
  have later : ∀ q : Packet, read16 (ipNaptModifyAddr (modifyAddrIn chksum q (transport p) (if dest then 16 else 12) addr)
      (if dest then 16 else 12) addr) (if dest then transport p + 2 else transport p) =
      read16 q (if dest then transport p + 2 else transport p) := by
    intro q
    apply read16_congr
    intro k small
    rw [ipNaptModifyAddr_frame (by split_ifs <;> omega) (by split_ifs <;> omega)]
    exact modifyAddrIn_frame (by split_ifs <;> omega)
  unfold rewrite
  rw [later]
  by_cases same : port = if dest then portDest p else portSrc p
  · rw [if_neg (not_not.mpr same),same]
    cases dest <;> rfl
  · rw [if_pos same]
    exact modifyPort_written

theorem rewrite_transport (whole : 20 ≤ transport p) : transport (rewrite chksum p dest port addr) = transport p := by
  have first : rewrite chksum p dest port addr 0 = p 0 :=
    rewrite_frame (by omega) (by split_ifs <;> omega) (by omega) (by split_ifs <;> omega)
  unfold transport iphHl
  rw [first]

theorem rewrite_proto (whole : 20 ≤ transport p) : iphProto (rewrite chksum p dest port addr) = iphProto p :=
  rewrite_frame (by omega) (by split_ifs <;> omega) (by omega) (by split_ifs <;> omega)

theorem rewrite_otherAddress (whole : 20 ≤ transport p) :
    read32 (rewrite chksum p dest port addr) (if dest then 12 else 16) = read32 p (if dest then 12 else 16) := by
  apply read32_congr
  intro k small
  exact rewrite_frame (by split_ifs <;> omega) (by split_ifs <;> omega) (by split_ifs <;> omega)
    (by split_ifs <;> omega)

theorem rewrite_otherPort (whole : 20 ≤ transport p) (far : 4 ≤ chksum) :
    read16 (rewrite chksum p dest port addr) (if dest then transport p else transport p + 2) =
      read16 p (if dest then transport p else transport p + 2) := by
  apply read16_congr
  intro k small
  exact rewrite_frame (by split_ifs <;> omega) (by split_ifs <;> omega) (by split_ifs <;> omega)
    (by split_ifs <;> omega)

theorem rewriteTcp_flags (whole : 20 ≤ transport p) : tcphFlags (rewriteTcp p dest port addr) = tcphFlags p := by
  rw [rewriteTcp_eq]
  unfold tcphFlags
  rw [rewrite_transport whole,
    rewrite_frame (by omega) (by split_ifs <;> omega) (by omega) (by split_ifs <;> omega)]

theorem ipNaptModifyAddr_transport (field10 : 10 ≤ field) :
    transport (ipNaptModifyAddr p field addr) = transport p := by
  unfold transport iphHl
  rw [ipNaptModifyAddr_frame (by omega) (by omega)]

theorem ipNaptModifyAddr_iecho (whole : 20 ≤ transport p) (inner : 10 ≤ field ∧ field ≤ 16) :
    iechoId (ipNaptModifyAddr p field addr) = iechoId p := by
  unfold iechoId
  rw [ipNaptModifyAddr_transport inner.1]
  apply read16_congr
  intro k small
  exact ipNaptModifyAddr_frame (by omega) (by omega)

end Frames

end NonosLinkLayer.Napt
