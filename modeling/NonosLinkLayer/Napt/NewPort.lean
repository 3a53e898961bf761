import NonosLinkLayer.Napt.Mappings

namespace NonosLinkLayer.Napt
open ByteMemory PackedTable

-- The ports that pcbs of a protocol are bound to. lwIP keeps a local_port in
-- host order; every other port here is as it stands in the packet.
def LocalPcbs.ports (pcbs : LocalPcbs) (proto : UInt8) : List UInt16 :=
  if proto = ipProtoTcp then pcbs.tcpListen else pcbs.udp

def InRange (p : UInt16) : Prop := ipNaptPortRangeStart ≤ p ∧ p ≤ ipNaptPortRangeEnd

instance (p : UInt16) : Decidable (InRange p) := inferInstanceAs (Decidable (_ ∧ _))

-- A port that a new session may have: one of the range, with no session, no
-- mapping and no pcb of the protocol on it.
structure Unclaimed (d : NaptData) (pcbs : LocalPcbs) (proto : UInt8) (p : UInt16) : Prop where
  range : InRange (swap16 p)
  sessions : ∀ i ∈ activeChain d, (d.table i).proto = proto → (d.table i).mport ≠ p
  mappings : ∀ m ∈ d.portmapTable, m.valid = true → m.proto = proto → m.mport ≠ p
  pcbs : swap16 p ∉ pcbs.ports proto

def taken (d : NaptData) (pcbs : LocalPcbs) (proto : UInt8) (port : UInt16) : Prop :=
  ipNaptFindPort d proto port = .ok true ∨ (proto = ipProtoTcp ∧ tcpListening d pcbs port) ∨
    (proto = ipProtoUdp ∧ udpListening d pcbs port)

def Kept (d : NaptData) (pcbs : LocalPcbs) (proto : UInt8) (port : UInt16) : Prop :=
  InRange (swap16 port) ∧ ipNaptFindPort d proto port = .ok false ∧ tcpListening d pcbs port = false

-- A port that is kept is not one of a pcb, nor for UDP one that is mapped; and
-- where one is drawn, the test in network order stops the port of every pcb.
def Shielded (d : NaptData) (pcbs : LocalPcbs) (proto : UInt8) (port : UInt16) : Prop :=
  (Kept d pcbs proto port → swap16 port ∉ pcbs.ports proto ∧ (proto = ipProtoUdp → ipPortmapFind d ipProtoUdp port = none)) ∧
  (¬ Kept d pcbs proto port → ∀ q ∈ pcbs.ports proto, InRange q → taken d pcbs proto (swap16 q))

theorem drawnPort_toNat (draw : Draw) : (drawnPort draw).toNat =
    (49152 + draw.low.toNat % 12288) % 256 * 256 + (49152 + draw.high.toNat % 12288) / 256 := by
  have one := Nat.mod_lt draw.low.toNat (by decide : 12288 > 0)
  have two := Nat.mod_lt draw.high.toNat (by decide : 12288 > 0)
  have drawn : ∀ r : UInt32, (ipNaptPortRangeStart.toUInt32 +
      r % (ipNaptPortRangeEnd.toUInt32 - ipNaptPortRangeStart.toUInt32 + 1)).toNat = 49152 + r.toNat % 12288 := by
    intro r
    have small := Nat.mod_lt r.toNat (by decide : 12288 > 0)
    rw [UInt32.toNat_add,UInt32.toNat_mod]
    change (49152 + r.toNat % 12288) % 2^32 = _
    omega
  unfold drawnPort
  dsimp only
  have low := drawn draw.low
  have high := drawn draw.high
  generalize ipNaptPortRangeStart.toUInt32 +
    draw.low % (ipNaptPortRangeEnd.toUInt32 - ipNaptPortRangeStart.toUInt32 + 1) = x at low ⊢
  generalize ipNaptPortRangeStart.toUInt32 +
    draw.high % (ipNaptPortRangeEnd.toUInt32 - ipNaptPortRangeStart.toUInt32 + 1) = y at high ⊢
  have lowByte : x.toNat &&& 255 = x.toNat % 256 := Nat.and_two_pow_sub_one_eq_mod x.toNat 8
  have highByte : (y.toNat &&& 65280) >>> 8 = y.toNat / 256 := by
    have mask : 65280 >>> 8 = 2^8 - 1 := by decide
    rw [Nat.shiftRight_and_distrib,Nat.shiftRight_eq_div_pow,mask,Nat.and_two_pow_sub_one_eq_mod]
    omega
  have sum := Nat.two_pow_add_eq_or_of_lt (i:=8) (b:=y.toNat / 256) (by omega) (x.toNat % 256)
  simp only [UInt32.toNat_toUInt16,UInt32.toNat_or,UInt32.toNat_shiftLeft,UInt32.toNat_shiftRight,UInt32.toNat_and]
  simp [lowByte,highByte]
  rw [Nat.shiftLeft_eq,Nat.mul_comm,Nat.mod_eq_of_lt (by omega : 2^8 * (x.toNat % 256) < 4294967296),←sum,
    Nat.mod_eq_of_lt (by omega),low,high,Nat.mul_comm]

theorem drawn_inRange (draw : Draw) : InRange (swap16 (drawnPort draw)) := by
  have small := Nat.mod_lt draw.high.toNat (by decide : 12288 > 0)
  have value := swap16_toNat (drawnPort draw)
  rw [drawnPort_toNat] at value
  have byte : (49152 + draw.low.toNat % 12288) % 256 < 256 := Nat.mod_lt _ (by decide)
  have least : 192 ≤ (49152 + draw.high.toNat % 12288) / 256 := by omega
  have most : (49152 + draw.high.toNat % 12288) / 256 < 240 := by omega
  generalize (49152 + draw.low.toNat % 12288) % 256 = low at byte value
  generalize (49152 + draw.high.toNat % 12288) / 256 = high at least most value
  have front : (low * 256 + high) / 256 = low := by omega
  have back : (low * 256 + high) % 256 = high := by omega
  rw [front,back] at value
  constructor
  · refine UInt16.le_iff_toNat_le.mpr ?_
    change 49152 ≤ _
    omega
  · refine UInt16.le_iff_toNat_le.mpr ?_
    change _ ≤ 61439
    omega

theorem drawn_all {q : UInt16} (range : InRange q) : ∃ draw, drawnPort draw = swap16 q := by
  have low : 49152 ≤ q.toNat := UInt16.le_iff_toNat_le.mp range.1
  have high : q.toNat ≤ 61439 := UInt16.le_iff_toNat_le.mp range.2
  have offset : (UInt32.ofNat (q.toNat - 49152)).toNat = q.toNat - 49152 := by
    rw [UInt32.toNat_ofNat']
    omega
  refine ⟨⟨UInt32.ofNat (q.toNat - 49152),UInt32.ofNat (q.toNat - 49152)⟩,UInt16.toNat_inj.mp ?_⟩
  have same : 49152 + (q.toNat - 49152) % 12288 = q.toNat := by omega
  rw [drawnPort_toNat,swap16_toNat,offset,same]

section Choice
variable {d : NaptData} {pcbs : LocalPcbs} {proto : UInt8} {port p : UInt16} {draws : List Draw}

theorem newPortLoop_drawn (ran : newPortLoop d pcbs proto draws = .ok p) :
    (∃ draw, p = drawnPort draw) ∧ ¬ taken d pcbs proto p := by
  induction draws with
  | nil => cases ran
  | cons draw draws ih =>
    unfold newPortLoop at ran
    obtain ⟨used,asked,ran⟩ := ok_bind.mp ran
    cases used with
    | true => exact ih ran
    | false =>
      simp only [Bool.false_eq_true,if_false] at ran
      split_ifs at ran with tcp udp
      · exact ih ran
      · exact ih ran
      · cases ran
        refine ⟨⟨draw,rfl⟩,?_⟩
        rintro (used | listening | listening)
        · rw [asked] at used
          cases used
        · exact tcp listening
        · exact udp listening

theorem newPortLoop_first (asked : ipNaptFindPort d proto (drawnPort draw) = .ok false)
    (free : ¬ taken d pcbs proto (drawnPort draw)) : newPortLoop d pcbs proto [draw] = .ok (drawnPort draw) := by
  unfold newPortLoop
  have tcp : ¬ (proto = ipProtoTcp ∧ tcpListening d pcbs (drawnPort draw)) := fun both => free (.inr (.inl both))
  have udp : ¬ (proto = ipProtoUdp ∧ udpListening d pcbs (drawnPort draw)) := fun both => free (.inr (.inr both))
  dsimp only
  rw [asked,ok_then,if_neg Bool.false_ne_true,if_neg tcp,if_neg udp]
  rfl

theorem newPort_kept (kept : Kept d pcbs proto port) : ipNaptNewPort d pcbs proto port draws = .ok port := by
  obtain ⟨range,asked,silent⟩ := kept
  unfold ipNaptNewPort
  refine (if_pos range).trans ?_
  rw [asked,ok_then,silent]
  rfl

theorem newPort_drawn (asked : ipNaptFindPort d proto port = .ok used) (drawn : ¬ Kept d pcbs proto port) :
    ipNaptNewPort d pcbs proto port draws = newPortLoop d pcbs proto draws := by
  unfold ipNaptNewPort
  by_cases range : InRange (swap16 port)
  · refine (if_pos range).trans ?_
    rw [asked,ok_then]
    cases used with
    | true => rfl
    | false =>
      cases listens : tcpListening d pcbs port with
      | true => rfl
      | false => exact absurd ⟨range,asked,listens⟩ drawn
  · exact if_neg range

end Choice

theorem find_port_false (sound : Sound natMax d a) (asked : ipNaptFindPort d proto port = .ok false) :
    ∀ i ∈ activeChain d, (d.table i).proto = proto → (d.table i).mport ≠ port :=
  fun _ member => findPort_unused sound.represents asked _ (sound.entry member)

theorem untaken_asked (rep : Represents d a) (free : ¬ taken d pcbs proto p) : ipNaptFindPort d proto p = .ok false := by
  have exact_ := findPort_exact rep proto p
  cases answer : a.active.any fun e => e.2.proto = proto ∧ e.2.mport = p with
  | false => rw [exact_,answer]
  | true => exact absurd (.inl (by rw [exact_,answer])) free

theorem unmapped (mapped : Mapped d full) (missing : ipPortmapFind d proto port = none) :
    ∀ m ∈ d.portmapTable, m.valid = true → m.proto = proto → m.mport ≠ port := by
  intro m member valid same port_same
  have none_ := (Holds.scan_none mapped).mp missing m (mapped.mem.mpr ⟨member,valid⟩)
  simp [same,port_same] at none_

theorem not_taken_unclaimed (sound : Sound natMax d a) (mapped : Mapped d full) (range : InRange (swap16 p))
    (transport : proto = ipProtoTcp ∨ proto = ipProtoUdp) (free : ¬ taken d pcbs proto p)
    (foreign : swap16 p ∉ pcbs.ports proto) : Unclaimed d pcbs proto p := by
  refine ⟨range,find_port_false sound (untaken_asked sound.represents free),?_,foreign⟩
  rcases transport with rfl | rfl
  · refine unmapped mapped ?_
    cases found : ipPortmapFind d ipProtoTcp p with
    | none => rfl
    | some x => exact absurd (.inr (.inl ⟨rfl,by simp [tcpListening,found]⟩)) free
  · refine unmapped mapped ?_
    cases found : ipPortmapFind d ipProtoUdp p with
    | none => rfl
    | some x => exact absurd (.inr (.inr ⟨rfl,by simp [udpListening,found]⟩)) free

def Chooses (s : System) (pcbs : LocalPcbs) (proto : UInt8) (port : UInt16) : Prop :=
  ∀ draws p, ipNaptNewPort s.data pcbs proto port draws = .ok p → Unclaimed s.data pcbs proto p

-- In a state of a run, whatever numbers are drawn, the port is free to take
-- exactly when the tests, made in network order, shield the ports of the pcbs.
theorem new_port_unclaimed (run : Run natMax portmapMax past s) (pcbs : LocalPcbs)
    (transport : proto = ipProtoTcp ∨ proto = ipProtoUdp) (port : UInt16) :
    Chooses s pcbs proto port ↔ Shielded s.data pcbs proto port := by
  obtain ⟨a,sound⟩ := run_sound run
  obtain ⟨full,mapped,_⟩ := run_mapped run
  have answered := findPort_exact sound.represents proto port
  constructor
  · intro good
    refine ⟨fun kept => ?_,fun drawn q bound range => ?_⟩
    · have unclaimed := good [] port (newPort_kept kept)
      refine ⟨unclaimed.pcbs,?_⟩
      rintro rfl
      refine portmapFind_none fun m member valid key => ?_
      exact unclaimed.mappings m member valid key.1 key.2
    · by_contra free
      obtain ⟨draw,same⟩ := drawn_all range
      rw [←same] at free
      have asked := untaken_asked sound.represents free
      have ran := (newPort_drawn answered drawn).trans (newPortLoop_first asked free)
      have unclaimed := good [draw] (drawnPort draw) ran
      apply unclaimed.pcbs
      rw [same,swap16_swap16]
      exact bound
  · rintro ⟨whenKept,whenDrawn⟩ draws p ran
    by_cases kept : Kept s.data pcbs proto port
    · rw [newPort_kept kept] at ran
      cases ran
      obtain ⟨foreign,silent⟩ := whenKept kept
      refine ⟨kept.1,find_port_false sound kept.2.1,?_,foreign⟩
      rcases transport with rfl | rfl
      · refine unmapped mapped ?_
        have quiet := kept.2.2
        unfold tcpListening at quiet
        rw [Bool.or_eq_false_iff] at quiet
        exact Option.isSome_eq_false_iff.mp quiet.2 |> Option.isNone_iff_eq_none.mp
      · exact unmapped mapped (silent rfl)
    · rw [newPort_drawn answered kept] at ran
      obtain ⟨⟨draw,drawn⟩,free⟩ := newPortLoop_drawn ran
      have range : InRange (swap16 p) := drawn ▸ drawn_inRange draw
      refine not_taken_unclaimed sound mapped range transport free fun bound => free ?_
      have stopped := whenDrawn kept (swap16 p) bound range
      rwa [swap16_swap16] at stopped

-- A listener at 49344, the same bytes both ways round, beside a mapping and a session.
def listeners : LocalPcbs := ⟨[49344],[53]⟩
def occupied : List (Nat × Event) :=
  [(0,.portmapAdd ipProtoTcp 0x0200000a 50000 0x0204a8c0 80),
    (1,.forward listeners [⟨0,0⟩] lan wan (.tcp 0x0204a8c0 0x3905 0x08080808 0x5000 tcpSyn))]

theorem next_port_unclaimed : ∃ s : System, (s.data.table 0).mport = drawnPort ⟨0,0⟩ ∧ 0 ∈ activeChain s.data ∧
    (ipPortmapFind s.data ipProtoTcp (swap16 50000)).isSome = true ∧ Chooses s listeners ipProtoTcp 0x3a05 := by
  obtain ⟨s,deeds,path,_,asked⟩ := arrives_runs (fresh 4 2) occupied
    (fun s _ => (s.data.table 0).mport == drawnPort ⟨0,0⟩ && decide (0 ∈ activeChain s.data) &&
      (ipPortmapFind s.data ipProtoTcp (swap16 50000)).isSome) (by decide +kernel) (by decide)
  simp only [Bool.and_eq_true,beq_iff_eq,decide_eq_true_eq] at asked
  obtain ⟨⟨drawn,listed⟩,mapped⟩ := asked
  refine ⟨s,drawn,listed,mapped,(new_port_unclaimed (fresh_run (by decide) path) listeners (.inl rfl) 0x3a05).mpr ?_⟩
  constructor
  · intro kept
    exact absurd kept.1 (by decide)
  · intro _ q bound range
    cases List.mem_singleton.mp bound
    have same : swap16 49344 = 49344 := by decide
    refine .inr (.inl ⟨rfl,?_⟩)
    simp [same,tcpListening,listeners]

-- A listener at port 50000 is compared with 20675, the same bytes the other way
-- round, and a UDP port that is kept is looked up among the TCP mappings.
theorem port_claimed_twice :
    ¬ (∀ (past : List Deed) (s : System) (pcbs : LocalPcbs) (port : UInt16), Run 4 2 past s →
      Chooses s pcbs ipProtoTcp port) ∧
    ¬ (∀ (past : List Deed) (s : System) (pcbs : LocalPcbs) (port : UInt16), Run 4 2 past s →
      Chooses s pcbs ipProtoUdp port) := by
  constructor
  · intro claimed
    have run : Run 4 2 [] (fresh 4 2) := fresh_run (by decide) .nil
    have ran : ipNaptNewPort (fresh 4 2).data ⟨[50000],[]⟩ ipProtoTcp (swap16 50000) [] = .ok (swap16 50000) := by
      decide +kernel
    have unclaimed := claimed [] (fresh 4 2) ⟨[50000],[]⟩ (swap16 50000) run [] (swap16 50000) ran
    exact unclaimed.pcbs (by decide)
  · intro claimed
    have mapping : Step (fresh 4 2) ⟨0,.portmapAdd ipProtoUdp 0x0200000a 50000 0x0204a8c0 80,.done 1⟩
        ⟨0,(ipPortmapAdd (fresh 4 2).data ipProtoUdp 0x0200000a 50000 0x0204a8c0 80).1⟩ := ⟨Nat.le_refl _,rfl,rfl⟩
    have run := fresh_run (by decide) (Transitions.Runs.single mapping)
    have ran : ipNaptNewPort (ipPortmapAdd (fresh 4 2).data ipProtoUdp 0x0200000a 50000 0x0204a8c0 80).1 quiet ipProtoUdp
        (swap16 50000) [] = .ok (swap16 50000) := by decide +kernel
    have unclaimed := claimed _ _ quiet (swap16 50000) run [] (swap16 50000) ran
    exact unclaimed.mappings ⟨0x0200000a,0x0204a8c0,swap16 50000,swap16 80,ipProtoUdp,true⟩ (by decide) rfl rfl rfl

end NonosLinkLayer.Napt
