import NonosLinkLayer.Napt.Within
import NonosLinkLayer.Napt.Sums

namespace NonosLinkLayer.Napt
open ByteMemory OnesComplement

-- IPH_OFFSET without its flags: where in its datagram a fragment starts.
def fragmentOffset (p : Packet) : UInt16 := swap16 (read16 p 6) &&& 0x1fff

def chksumField (p : Packet) : Nat := if iphProto p = ipProtoTcp then 16 else 6

-- The bytes a translation is there to change. Only the first fragment of a
-- datagram has a transport header.
def Rewritable (p : Packet) (dest : Bool) (i : Nat) : Prop :=
  (10 ≤ i ∧ i < 12) ∨
  ((if dest then 16 else 12) ≤ i ∧ i < (if dest then 16 else 12) + 4) ∨
  fragmentOffset p = 0 ∧ Transport p ∧
    ((if dest then transport p + 2 else transport p) ≤ i ∧ i < (if dest then transport p + 2 else transport p) + 2 ∨
      transport p + chksumField p ≤ i ∧ i < transport p + chksumField p + 2)

-- No byte behind the packet is asked for, and no other byte comes out different.
def Neat (p : Packet) (dest : Bool) (outcome : Except Trap Packet) : Prop :=
  outcome ≠ .error .beyond ∧ ∀ p', outcome = .ok p' → ∀ i, ¬ Rewritable p dest i → p' i = p i

-- A rewriting that does nothing behind the IP header: the port is the one that
-- is there, and the address counts as much as the old one.
def Undisturbing (p : Packet) (dest : Bool) (port : UInt16) (addr : UInt32) : Prop :=
  port = (if dest then portDest p else portSrc p) ∧
  (oldWords p dest port).sum ≡ (newWords p dest port addr).sum [ZMOD 0xffff] ∧
  (word16 p (transport p + chksumField p) = 0xffff →
    Drained 0xffff (word16 p (transport p + chksumField p)) (oldWords p dest port) (newWords p dest port addr))

def Headed (p : Packet) (dest : Bool) : Except Fault (Option (UInt16 × UInt32)) → Prop
  | .ok (some (port,addr)) => fragmentOffset p = 0 ∨ ¬ Transport p ∨ Undisturbing p dest port addr
  | _ => True

-- A later fragment of a datagram from 192.168.4.2 to 8.8.8.8, with payload where a UDP header would be, and a
-- packet that ends with its IP header.
def laterFragment : Datagram := .ofBytes
  [0x45,0,0,0x1c,0,0,0,0x17,0x40,17,0xa6,0,192,168,4,2,8,8,8,8,0x05,0x39,0,0x35,0,8,0x25,0xb6] (by decide)
def bareHeader : Datagram := .ofBytes [0x45,0,0,0x14,0,0,0,0,0x40,17,0xa6,0x1f,192,168,4,2,8,8,8,8] (by decide)

section Frame
variable {p : Packet} {dest : Bool} {port : UInt16} {addr : UInt32} {chksum len : Nat}

def translate (dest : Bool) (p : Packet) (port : UInt16) (addr : UInt32) : Packet :=
  if dest then toInside p port addr else toOutside p port addr

theorem translate_icmp (icmp : iphProto p = ipProtoIcmp) :
    translate dest p port addr = ipNaptModifyAddr p (if dest then 16 else 12) addr := by
  cases dest
  · exact toOutside_icmp icmp
  · exact toInside_icmp icmp

theorem translate_transport (transport : Transport p) :
    translate dest p port addr = rewrite (chksumField p) p dest port addr := by
  unfold chksumField
  rcases transport with tcp | udp
  · rw [if_pos tcp]
    cases dest
    · exact toOutside_tcp tcp
    · exact toInside_tcp tcp
  · rw [if_neg (by rw [udp]; decide)]
    cases dest
    · exact toOutside_udp udp
    · exact toInside_udp udp

theorem chksumField_far (p : Packet) : 4 ≤ chksumField p := by
  unfold chksumField
  split_ifs <;> decide

theorem word16_inj {q : Packet} {pos : Nat} (same : word16 q pos = word16 p pos) :
    q pos = p pos ∧ q (pos+1) = p (pos+1) := by
  have low := (p (pos+1)).toNat_lt
  have low' := (q (pos+1)).toNat_lt
  unfold word16 pairWord at same
  dsimp only at same
  exact ⟨UInt8.toNat_inj.mp (by omega),UInt8.toNat_inj.mp (by omega)⟩

theorem rewrite_undisturbing (whole : 20 ≤ transport p) (far : chksum = chksumField p) :
    (∀ i, 20 ≤ i → rewrite chksum p dest port addr i = p i) ↔ Undisturbing p dest port addr := by
  have distance := chksumField_far p
  rw [←far] at distance
  have sum : word16 (rewrite chksum p dest port addr) (transport p + chksum) = _ := rewrite_sum whole distance
  have digit := word16_digit p (transport p + chksum)
  have unchanged := digit.adjust_same (oldWords_digit p dest port) (newWords_digit p dest port addr)
  rw [←sum] at unchanged
  unfold Undisturbing
  rw [←far,←unchanged]
  have placed : read16 (rewrite chksum p dest port addr) (if dest then transport p + 2 else transport p) = port :=
    rewrite_port whole distance
  have there : (if dest then portDest p else portSrc p) = read16 p (if dest then transport p + 2 else transport p) := by
    cases dest <;> rfl
  constructor
  · intro alone
    refine ⟨?_,word16_congr (alone _ (by omega)) (alone _ (by omega))⟩
    rw [there,←placed]
    exact read16_congr fun k _ => alone _ (by split_ifs <;> omega)
  · rintro ⟨named,summed⟩ i behind
    by_cases inSum : transport p + chksum ≤ i ∧ i < transport p + chksum + 2
    · obtain ⟨high,low⟩ := word16_inj summed
      rcases (show i = transport p + chksum ∨ i = transport p + chksum + 1 by omega) with here | here
      · rw [here,high]
      · rw [here,low]
    by_cases inPort : (if dest then transport p + 2 else transport p) ≤ i ∧
        i < (if dest then transport p + 2 else transport p) + 2
    · have bytes := bytes16_read16 p (if dest then transport p + 2 else transport p)
      rw [←there,←named,←placed,bytes16_read16] at bytes
      obtain ⟨low,high,_⟩ := List.cons_eq_cons.mp bytes |>.imp_right List.cons_eq_cons.mp
      generalize (if dest then transport p + 2 else transport p) = pos at inPort low high
      rcases (show i = pos ∨ i = pos + 1 by omega) with here | here
      · rw [here,low]
      · rw [here,high]
    exact rewrite_frame (by omega) (by split_ifs <;> omega) (by omega) (by omega)

theorem translate_framed (whole : 20 ≤ transport p) (known : iphProto p = ipProtoIcmp ∨ Transport p) :
    (∀ i, ¬ Rewritable p dest i → translate dest p port addr i = p i) ↔ Headed p dest (.ok (some (port,addr))) := by
  have distance := chksumField_far p
  unfold Headed Rewritable
  dsimp only
  by_cases transported : Transport p
  · rw [translate_transport transported]
    by_cases first : fragmentOffset p = 0
    · refine iff_of_true (fun i other => ?_) (.inl first)
      rw [not_or,not_or] at other
      obtain ⟨ipSum,ipAddr,behind⟩ := other
      obtain ⟨port,sum⟩ := not_or.mp fun both => behind ⟨first,transported,both⟩
      exact rewrite_frame (by omega) (by omega) (by omega) (by omega)
    have later : (∀ i, 20 ≤ i → rewrite (chksumField p) p dest port addr i = p i) ↔ Undisturbing p dest port addr :=
      rewrite_undisturbing whole rfl
    constructor
    · intro framed
      refine .inr (.inr (later.mp fun i behind => framed i ?_))
      rintro (ipSum | ipAddr | ⟨isFirst,_⟩)
      · omega
      · split_ifs at ipAddr <;> omega
      · exact first isFirst
    · rintro (isFirst | none | alone) i other
      · exact absurd isFirst first
      · exact absurd transported none
      · rw [not_or,not_or] at other
        obtain ⟨ipSum,ipAddr,_⟩ := other
        by_cases behind : 20 ≤ i
        · exact later.mpr alone i behind
        · exact rewrite_frame (by omega) (by omega) (by omega) (by split_ifs <;> omega)
  · have icmp := known.resolve_right transported
    rw [translate_icmp icmp]
    refine iff_of_true (fun i other => ?_) (.inr (.inl transported))
    rw [not_or,not_or] at other
    exact ipNaptModifyAddr_frame (by omega) (by omega)

theorem recvTarget_known (found : recvTarget d now p = .ok (some x)) : iphProto p = ipProtoIcmp ∨ Transport p := by
  unfold recvTarget at found
  by_cases inbound : Inbound p
  · exact inbound.imp_left And.left
  · rw [if_pos inbound] at found
    cases found

theorem forwardSource_known (found : forwardSource d now pcbs draws inp outp p = .ok (some x)) :
    iphProto p = ipProtoIcmp ∨ Transport p := by
  unfold forwardSource at found
  by_cases other : inp.napt = false ∨ ¬ Outbound p
  · rw [if_pos other] at found
    cases found
  · exact (not_not.mp (not_or.mp other).2).imp_left And.left

theorem neat_reaching {x : Except Fault α} {f : α → Packet} {target : Except Fault (Option (UInt16 × UInt32))}
    (whole : 20 ≤ transport p) (left : x.map f = target.map fun t => t.elim p fun t => translate dest p t.1 t.2)
    (known : ∀ t, target = .ok (some t) → iphProto p = ipProtoIcmp ∨ Transport p) :
    Neat p dest ((reaching len last (lift x)).map f) ↔ last ≤ len ∧ Headed p dest target := by
  by_cases fits : last ≤ len
  · rw [reaching_ok fits]
    have same : (lift x).map f = lift (target.map fun t => t.elim p fun t => translate dest p t.1 t.2) := by
      rw [←left]
      cases x <;> rfl
    rw [same,and_iff_right fits]
    unfold Neat
    match target,known with
    | .error fault,_ => exact iff_of_true ⟨nofun,nofun⟩ trivial
    | .ok none,_ => exact iff_of_true ⟨nofun,fun p' same i _ => by cases same; rfl⟩ trivial
    | .ok (some (port,addr)),known =>
      rw [←translate_framed whole (known _ rfl)]
      constructor
      · exact fun neat => neat.2 _ rfl
      · intro framed
        refine ⟨nofun,fun p' same => ?_⟩
        cases same
        exact framed
  · rw [reaching_beyond (by omega)]
    exact iff_of_false (fun neat => neat.1 rfl) fun both => fits both.1

theorem Headed.first (first : fragmentOffset p = 0) (target : Except Fault (Option (UInt16 × UInt32))) :
    Headed p dest target := by
  match target with
  | .error fault => trivial
  | .ok none => trivial
  | .ok (some (port,addr)) => exact .inl first

end Frame

-- Which calls keep to the bytes they are to change: those with a packet that has
-- the bytes its branch looks at, of a first fragment, without a target or with an
-- undisturbing one.
theorem frame_kept (p : Datagram) (header : transport p.packet ≤ len) :
    (∀ d now, Neat p.packet true ((ipNaptRecvWithin len d now p.packet).map Prod.snd) ↔
      transport p.packet + recvReach d now p.packet ≤ len ∧ Headed p.packet true (recvTarget d now p.packet)) ∧
    ∀ d now pcbs draws inp outp,
      Neat p.packet false ((ipNaptForwardWithin len d now pcbs draws inp outp p.packet).map Forwarded.packet) ↔
        transport p.packet + forwardReach d now pcbs draws inp outp p.packet ≤ len ∧
          Headed p.packet false (forwardSource d now pcbs draws inp outp p.packet) := by
  constructor
  · intro d now
    rw [recvWithin_eq d now p.header header]
    exact neat_reaching p.header (recv_inward d now p.packet) fun _ => recvTarget_known
  · intro d now pcbs draws inp outp
    rw [forwardWithin_eq d now pcbs draws outp inp p.header header]
    exact neat_reaching p.header (forward_outward d now pcbs draws inp outp p.packet) fun _ => forwardSource_known

theorem query_framed : Neat checkedQuery.packet false
    ((ipNaptForwardWithin 28 (emptyTables 3 2) 0 quiet [⟨0,0⟩] lan wan checkedQuery.packet).map Forwarded.packet) := by
  have kept := (frame_kept checkedQuery (show transport checkedQuery.packet ≤ 28 by decide)).2
  exact (kept _ _ _ _ _ _).mpr ⟨by decide +kernel,.first (by decide) _⟩

-- The first bytes of a later fragment are overwritten as if they were ports, and the ports of a packet that is
-- too short for them are read from behind it.
theorem fragment_overwritten :
    ¬ Neat laterFragment.packet false
      ((ipNaptForwardWithin 28 (emptyTables 3 2) 0 quiet [⟨0,0⟩] lan wan laterFragment.packet).map Forwarded.packet) ∧
    ¬ Neat bareHeader.packet false
      ((ipNaptForwardWithin 20 (emptyTables 3 2) 0 quiet [⟨0,0⟩] lan wan bareHeader.packet).map Forwarded.packet) := by
  constructor
  · intro neat
    have changed : (match ipNaptForwardWithin 28 (emptyTables 3 2) 0 quiet [⟨0,0⟩] lan wan laterFragment.packet with
        | .ok r => r.packet 20 != laterFragment.packet 20
        | .error _ => false) = true := by decide +kernel
    cases ran : ipNaptForwardWithin 28 (emptyTables 3 2) 0 quiet [⟨0,0⟩] lan wan laterFragment.packet with
    | error trap => simp [ran] at changed
    | ok r =>
      have payload : ¬ Rewritable laterFragment.packet false 20 := by
        rintro (ipSum | ipAddr | ⟨first,_⟩)
        · exact absurd ipSum (by decide)
        · exact absurd ipAddr (by decide)
        · exact absurd first (by decide)
      rw [ran] at neat changed
      have kept := neat.2 r.packet rfl 20 payload
      simp [kept] at changed
  · intro neat
    have beyond : (match ipNaptForwardWithin 20 (emptyTables 3 2) 0 quiet [⟨0,0⟩] lan wan bareHeader.packet with
        | .error .beyond => true
        | _ => false) = true := by decide +kernel
    cases ran : ipNaptForwardWithin 20 (emptyTables 3 2) 0 quiet [⟨0,0⟩] lan wan bareHeader.packet with
    | ok r => simp [ran] at beyond
    | error trap =>
      rw [ran] at neat beyond
      cases trap with
      | beyond => exact neat.1 rfl
      | null => cases beyond
      | fault fault => cases beyond

end NonosLinkLayer.Napt
