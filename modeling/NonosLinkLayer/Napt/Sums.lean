import NonosLinkLayer.Napt.Checksums
import NonosLinkLayer.Napt.Targets
import NonosLinkLayer.Napt.System

namespace NonosLinkLayer.Napt
open OnesComplement

-- The checksum field of a UDP header. A sender that computes none leaves 0 in it.
def udpSum (p : Packet) : Int := word16 p (transport p + 6)

-- The field of a rewritten packet says what the one of the packet said: that
-- there is no checksum, or a valid one.
def SumMeant (len : Nat) (p p' : Packet) : Prop :=
  (udpSum p = 0 → udpSum p' = 0) ∧
  (udpSum p ≠ 0 → TransportSum p len → udpSum p' ≠ 0 ∧ TransportSum p' len)

-- The rewritings that do so. Without a checksum the new words have to count as
-- much as the old ones; with one, the new checksum must not come out as 0.
def Harmless (len : Nat) (p : Packet) (dest : Bool) : Option (UInt16 × UInt32) → Prop
  | none => True
  | some (port,addr) =>
    if udpSum p = 0 then (oldWords p dest port).sum ≡ (newWords p dest port addr).sum [ZMOD 0xffff]
    else TransportSum p len → ¬ udpSum p + (oldWords p dest port).sum ≡ (newWords p dest port addr).sum [ZMOD 0xffff] ∨
      Drained 0xffff (udpSum p) (oldWords p dest port) (newWords p dest port addr)

instance (len : Nat) (p : Packet) (dest : Bool) : ∀ target, Decidable (Harmless len p dest target)
  | none => isTrue trivial
  | some (port,addr) => inferInstanceAs (Decidable
      (if udpSum p = 0 then (oldWords p dest port).sum ≡ (newWords p dest port addr).sum [ZMOD 0xffff]
      else TransportSum p len → _ ∨ Drained 0xffff (udpSum p) (oldWords p dest port) (newWords p dest port addr)))

def Datagram.ofBytes (bytes : List UInt8) (whole : 5 ≤ (bytes.getD 0 0).toNat % 16) : Datagram where
  packet i := bytes.getD i 0
  whole := whole

def checkedSyn : Datagram := .ofBytes
  [0x45,0,0,0x28,0,0,0,0,0x40,6,0xa6,0x16,192,168,4,2,8,8,8,8,
   0x05,0x39,0,0x50,0,0,0,0,0,0,0,0,0x50,2,0,0,0xd5,0x9f,0,0] (by decide)

-- Queries to 8.8.8.8: one with an ordinary checksum, one without a checksum, and one whose checksum is to
-- come out as 0 when it leaves from port 49152 of 10.0.0.2.
def checkedQuery : Datagram := .ofBytes
  [0x45,0,0,0x1c,0,0,0,0,0x40,17,0xa6,0x17,192,168,4,2,8,8,8,8,0x05,0x39,0,0x35,0,8,0x25,0xb6] (by decide)
def bareQuery : Datagram := .ofBytes
  [0x45,0,0,0x1c,0,0,0,0,0x40,17,0xa6,0x17,192,168,4,2,8,8,8,8,0x05,0x39,0,0x35,0,8,0,0] (by decide)
def luckyQuery : Datagram := .ofBytes
  [0x45,0,0,0x1e,0,0,0,0,0x40,17,0xa6,0x15,192,168,4,2,8,8,8,8,0x05,0x39,0,0x35,0,10,0,0x1f,0x25,0x93] (by decide)

section Kept
variable {p : Datagram} {dest : Bool} {port : UInt16} {addr : UInt32} {len : Nat}

theorem recv_targeted (ran : ipNaptRecv d now p.packet = .ok (d',p')) :
    ∃ target, recvTarget d now p.packet = .ok target ∧ p' = inward p.packet target := by
  have left := recv_inward d now p.packet
  rw [ran] at left
  cases target : recvTarget d now p.packet with
  | error fault => rw [target] at left; cases left
  | ok target' =>
    rw [target] at left
    exact ⟨target',rfl,Except.ok.inj left⟩

theorem forward_sourced (ran : ipNaptForward d now pcbs draws inp outp p.packet = .ok r) :
    ∃ source, forwardSource d now pcbs draws inp outp p.packet = .ok source ∧ r.packet = outward p.packet source := by
  have left := forward_outward d now pcbs draws inp outp p.packet
  rw [ran] at left
  cases source : forwardSource d now pcbs draws inp outp p.packet with
  | error fault => rw [source] at left; cases left
  | ok source' =>
    rw [source] at left
    exact ⟨source',rfl,Except.ok.inj left⟩

theorem inward_keeps {P : Packet → Prop} (ran : ipNaptRecv d now p.packet = .ok (d',p'))
    (still : P p.packet) (rewritten : ∀ port addr, P (toInside p.packet port addr)) : P p' := by
  obtain ⟨target,_,rfl⟩ := recv_targeted ran
  cases target with
  | none => exact still
  | some x => exact rewritten x.1 x.2

theorem outward_keeps {P : Packet → Prop} (ran : ipNaptForward d now pcbs draws inp outp p.packet = .ok r)
    (still : P p.packet) (rewritten : ∀ port addr, P (toOutside p.packet port addr)) : P r.packet := by
  obtain ⟨source,_,same⟩ := forward_sourced ran
  rw [same]
  cases source with
  | none => exact still
  | some x => exact rewritten x.1 x.2

def translates (d : NaptData) (draws : List Draw) (p : Datagram) (asked : Forwarded → Bool) : Bool :=
  match ipNaptForward d 0 quiet draws lan wan p.packet with
  | .ok r => asked r
  | .error _ => false

theorem translates_ok (d : NaptData) (draws : List Draw) (p : Datagram) (asked : Forwarded → Bool)
    (computed : translates d draws p asked = true) :
    ∃ r, ipNaptForward d 0 quiet draws lan wan p.packet = .ok r ∧ asked r = true := by
  unfold translates at computed
  cases ran : ipNaptForward d 0 quiet draws lan wan p.packet with
  | error fault => simp [ran] at computed
  | ok r => exact ⟨r,rfl,by simpa [ran] using computed⟩

-- A TCP packet with valid checksums leaves with valid checksums, whatever the tables say.
theorem tcp_sums_kept (p : Datagram) (tcp : iphProto p.packet = ipProtoTcp) (long : 20 ≤ len) (short : len ≤ 0xffff)
    (header : IpSum p.packet) (segment : TransportSum p.packet len) :
    (∀ d now d' p', ipNaptRecv d now p.packet = .ok (d',p') → IpSum p' ∧ TransportSum p' len) ∧
    ∀ d now pcbs draws inp outp r, ipNaptForward d now pcbs draws inp outp p.packet = .ok r →
      IpSum r.packet ∧ TransportSum r.packet len := by
  have kept : ∀ dest port addr, IpSum (rewriteTcp p.packet dest port addr) ∧
      TransportSum (rewriteTcp p.packet dest port addr) len := by
    intro dest port addr
    rw [rewriteTcp_eq]
    exact ⟨(rewrite_keeps_ipSum p.whole).mpr header,(rewrite_keeps_sum 6 p.header (by rw [tcp]; decide) short rfl
      (by omega)).mpr segment⟩
  constructor
  · intro d now d' p' ran
    refine inward_keeps (P:=fun q => IpSum q ∧ TransportSum q len) ran ⟨header,segment⟩ ?_
    intro port addr
    rw [toInside_tcp tcp]
    exact kept ..
  · intro d now pcbs draws inp outp r ran
    refine outward_keeps (P:=fun q => IpSum q ∧ TransportSum q len) ran ⟨header,segment⟩ ?_
    intro port addr
    rw [toOutside_tcp tcp]
    exact kept ..

theorem syn_sums_kept : ∃ r, ipNaptForward (emptyTables 3 2) 0 quiet [⟨0,0⟩] lan wan checkedSyn.packet = .ok r ∧
    iphSrc r.packet = 0x0200000a ∧ IpSum r.packet ∧ TransportSum r.packet 20 := by
  obtain ⟨r,ran,sent⟩ := translates_ok (emptyTables 3 2) [⟨0,0⟩] checkedSyn
    (fun r => iphSrc r.packet == 0x0200000a) (by decide +kernel)
  have segment : TransportSum checkedSyn.packet 20 := by decide +kernel
  obtain ⟨_,outward⟩ := tcp_sums_kept checkedSyn (by decide) (by decide) (by decide) (by decide +kernel) segment
  exact ⟨r,ran,by simpa using sent,outward _ _ _ _ _ _ r ran⟩

theorem rewriteUdp_meant (udp : iphProto p.packet = ipProtoUdp) (long : 8 ≤ len) (short : len ≤ 0xffff) :
    SumMeant len p.packet (rewriteUdp p.packet dest port addr) ↔ Harmless len p.packet dest (some (port,addr)) := by
  have same : transport (rewriteUdp p.packet dest port addr) = transport p.packet := by
    rw [rewriteUdp_eq]
    exact rewrite_transport p.header
  have field : udpSum (rewriteUdp p.packet dest port addr) = adjust 0xffff (udpSum p.packet)
      (oldWords p.packet dest port) (newWords p.packet dest port addr) := by
    unfold udpSum
    rw [same,rewriteUdp_eq]
    exact rewrite_sum p.header (by decide)
  have valid : TransportSum (rewriteUdp p.packet dest port addr) len ↔ TransportSum p.packet len := by
    rw [rewriteUdp_eq]
    exact rewrite_keeps_sum 1 p.header (by rw [udp]; decide) short rfl (by omega)
  have digit : Digit 0xffff (udpSum p.packet) := word16_digit ..
  have zero := digit.adjust_zero (oldWords_digit p.packet dest port) (newWords_digit p.packet dest port addr) (by decide)
  rw [←field] at zero
  have some : udpSum (rewriteUdp p.packet dest port addr) ≠ 0 ↔
      ¬ udpSum p.packet + (oldWords p.packet dest port).sum ≡ (newWords p.packet dest port addr).sum [ZMOD 0xffff] ∨
        Drained 0xffff (udpSum p.packet) (oldWords p.packet dest port) (newWords p.packet dest port addr) := by
    rw [ne_eq,zero,not_and_or,not_not]
  unfold SumMeant Harmless
  dsimp only
  rw [valid,some,zero]
  by_cases none : udpSum p.packet = 0
  · have still : ¬ Drained 0xffff (udpSum p.packet) (oldWords p.packet dest port) (newWords p.packet dest port addr) := by
      rintro ⟨full,_⟩
      rw [none] at full
      cases full
    rw [if_pos none,and_iff_left still,none,zero_add]
    exact ⟨fun meant => meant.1 rfl,fun same => ⟨fun _ => same,fun some => absurd rfl some⟩⟩
  · rw [if_neg none]
    exact ⟨fun meant sums => (meant.2 none sums).1,
      fun other => ⟨fun isZero => absurd isZero none,fun _ sums => ⟨other sums,sums⟩⟩⟩

-- The UDP checksum keeps its meaning exactly where the rewriting is harmless.
theorem udp_sums_kept (p : Datagram) (udp : iphProto p.packet = ipProtoUdp) (long : 8 ≤ len) (short : len ≤ 0xffff) :
    (∀ d now d' p', ipNaptRecv d now p.packet = .ok (d',p') → ∃ target, recvTarget d now p.packet = .ok target ∧
      (SumMeant len p.packet p' ↔ Harmless len p.packet true target)) ∧
    ∀ d now pcbs draws inp outp r, ipNaptForward d now pcbs draws inp outp p.packet = .ok r →
      ∃ source, forwardSource d now pcbs draws inp outp p.packet = .ok source ∧
        (SumMeant len p.packet r.packet ↔ Harmless len p.packet false source) := by
  have still : SumMeant len p.packet p.packet := ⟨id,fun some valid => ⟨some,valid⟩⟩
  constructor
  · intro d now d' p' ran
    obtain ⟨target,told,rfl⟩ := recv_targeted ran
    refine ⟨target,told,?_⟩
    cases target with
    | none => exact iff_of_true still trivial
    | some x =>
      change SumMeant len p.packet (toInside p.packet x.1 x.2) ↔ _
      rw [toInside_udp udp]
      exact rewriteUdp_meant udp long short
  · intro d now pcbs draws inp outp r ran
    obtain ⟨source,told,same⟩ := forward_sourced ran
    refine ⟨source,told,?_⟩
    rw [same]
    cases source with
    | none => exact iff_of_true still trivial
    | some x =>
      change SumMeant len p.packet (toOutside p.packet x.1 x.2) ↔ _
      rw [toOutside_udp udp]
      exact rewriteUdp_meant udp long short

theorem query_sum_kept : ∃ r, ipNaptForward (emptyTables 3 2) 0 quiet [⟨0,0⟩] lan wan checkedQuery.packet = .ok r ∧
    iphSrc r.packet = 0x0200000a ∧ udpSum r.packet ≠ 0 ∧ TransportSum r.packet 8 := by
  obtain ⟨r,ran,sent⟩ := translates_ok (emptyTables 3 2) [⟨0,0⟩] checkedQuery
    (fun r => iphSrc r.packet == 0x0200000a) (by decide +kernel)
  obtain ⟨_,outward⟩ := udp_sums_kept checkedQuery (by decide) (show 8 ≤ 8 by decide) (by decide)
  obtain ⟨source,found,meant⟩ := outward _ _ _ _ _ _ r ran
  have same : (match forwardSource (emptyTables 3 2) 0 quiet [⟨0,0⟩] lan wan checkedQuery.packet with
      | .ok source => source == some (0xc0,0x0200000a)
      | .error _ => false) = true := by decide +kernel
  rw [found] at same
  rw [beq_iff_eq.mp same] at meant
  have harmless : Harmless 8 checkedQuery.packet false (some (0xc0,0x0200000a)) := by
    decide +kernel
  exact ⟨r,ran,by simpa using sent,(meant.mpr harmless).2 (by decide) (by decide +kernel)⟩

-- What was no checksum becomes one, and a checksum becomes none.
theorem udp_sums_garbled : ∃ r r', ipNaptForward (emptyTables 3 2) 0 quiet [⟨0,0⟩] lan wan bareQuery.packet = .ok r ∧
    udpSum bareQuery.packet = 0 ∧ udpSum r.packet ≠ 0 ∧
    ipNaptForward (emptyTables 3 2) 0 quiet [⟨0,0⟩] lan wan luckyQuery.packet = .ok r' ∧
    udpSum luckyQuery.packet ≠ 0 ∧ TransportSum luckyQuery.packet 10 ∧ udpSum r'.packet = 0 ∧
    ¬ SumMeant 8 bareQuery.packet r.packet ∧ ¬ SumMeant 10 luckyQuery.packet r'.packet := by
  obtain ⟨r,ran,some⟩ := translates_ok (emptyTables 3 2) [⟨0,0⟩] bareQuery
    (fun r => decide (udpSum r.packet ≠ 0)) (by decide +kernel)
  obtain ⟨r',ran',none⟩ := translates_ok (emptyTables 3 2) [⟨0,0⟩] luckyQuery
    (fun r => decide (udpSum r.packet = 0)) (by decide +kernel)
  have bare : udpSum bareQuery.packet = 0 := by decide
  have sum : udpSum luckyQuery.packet ≠ 0 := by decide
  have valid : TransportSum luckyQuery.packet 10 := by
    unfold TransportSum
    decide +kernel
  have some' := of_decide_eq_true some
  have none' := of_decide_eq_true none
  exact ⟨r,r',ran,bare,some',ran',sum,valid,none',fun meant => some' (meant.1 bare),
    fun meant => (meant.2 sum valid).1 none'⟩

end Kept

end NonosLinkLayer.Napt
