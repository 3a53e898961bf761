import NonosLinkLayer.Espconn.Udp

namespace NonosLinkLayer.Espconn.UdpMsg
open Pieces

def AllAllocated (L : UdpStack) (s s' : UdpMsg) : Prop := ∀ i, s.allocs ≤ i → i < s'.allocs → L.pbufAlloc i = true
def AllSent (L : UdpStack) (s s' : UdpMsg) : Prop := ∀ i, s.sends ≤ i → i < s'.sends → (L.udpSend i).err = 0

structure Cut (s s' : UdpMsg) (data : List UInt8) (parts : List (List UInt8)) (rest : List UInt8) : Prop where
  whole : data = parts.flatten ++ rest
  sizes : ∀ part ∈ parts, part ≠ [] ∧ part.length ≤ 1472
  sent : s'.sent = s.sent ++ parts.map fun part => ⟨s.netifDefault,s.remoteIp,s.remotePort16,part⟩

-- What a call that sends `data` to one interface should come to: it is cut, with nothing
-- left unless memory is short; sent_callback is called once, and the result is ESPCONN_OK,
-- exactly when everything succeeded.
structure Splits (L : UdpStack) (s : UdpMsg) (data : List UInt8) (s' : UdpMsg) (result : Int) : Prop where
  cut : ∃ parts rest, Cut s s' data parts rest ∧ (AllAllocated L s s' → rest = [])
  once : AllAllocated L s s' ∧ AllSent L s s' → s'.called = s.called + if s.sentCallback = true then 1 else 0
  never : ¬ (AllAllocated L s s' ∧ AllSent L s s') → s'.called = s.called
  ok : result = espconnOk ↔ AllAllocated L s s' ∧ AllSent L s s'

def Uniform (L : UdpStack) (s : UdpMsg) (k : Nat) : Prop :=
  (∀ j < k, L.pbufAlloc (s.allocs + j) = true ∧ (L.udpSend (s.sends + j)).err = 0) ∨
  ¬ (L.pbufAlloc s.allocs = true ∧ (L.udpSend s.sends).err = 0) ∧
    (s.sentCallback = true → (∃ j < k, L.pbufAlloc (s.allocs + j) = false) ∨ (L.udpSend (s.sends + k - 1)).err ≠ 0)

section Single
variable {L : UdpStack} {opt : SendOpt} {s s' : UdpMsg} {data : List UInt8} {k m : Nat} {result : Int}

theorem Course.cut (course : Course L opt s data k s' result m) (single : s.twice L opt = false) (count : pieces 1472 data.length = k) :
    Cut s s' data ((List.range m).map (piece 1472 data)) (data.drop (1472 * m)) := by
  refine ⟨?_,?_,?_⟩
  · rw [flatten_pieces,List.take_append_drop]
  · intro part member
    obtain ⟨j,small,rfl⟩ := List.mem_map.mp member
    have inside : j < pieces 1472 data.length := by
      have reached := course.reached
      rw [List.mem_range] at small
      omega
    exact ⟨piece_some (by decide) inside,length_piece ..⟩
  · rw [course.sent,single,List.map_map,List.map_eq_flatMap]
    rfl

structure Course.Single (L : UdpStack) (s : UdpMsg) (k : Nat) (s' : UdpMsg) (result : Int) (m : Nat) : Prop where
  reached : m ≤ k
  going : ∀ j < m, L.pbufAlloc (s.allocs + j) = true
  stuck : m < k → L.pbufAlloc (s.allocs + m) = false
  allocs : s'.allocs = s.allocs + min (m + 1) k
  sends : s'.sends = s.sends + m
  called : s'.called = s.called + if m = k ∧ (L.udpSend (s.sends + k - 1)).err = 0 ∧ s.sentCallback = true then 1 else 0
  none : m = 0 → result ≠ espconnOk
  some : 0 < m → (result = espconnOk ↔ (L.udpSend s.sends).err = 0)

theorem Course.single (course : Course L opt s data k s' result m) (single : s.twice L opt = false) :
    Course.Single L s k s' result m := by
  obtain ⟨reached,going,stuck,_,sends,allocs,_,called,_,none,some⟩ := course
  simp only [single,goes,width,Bool.false_eq_true,if_false,Nat.one_mul,Bool.not_false,Bool.true_or,Bool.and_true,
    Nat.add_sub_cancel] at going stuck sends allocs called some
  exact ⟨reached,going,stuck,allocs trivial,sends,called,none,some⟩

namespace Course.Single

theorem all_allocated (course : Course.Single L s k s' result m) : AllAllocated L s s' ↔ m = k := by
  obtain ⟨reached,going,stuck,allocs,_,_,_,_⟩ := course
  constructor
  · intro all
    refine Nat.le_antisymm reached (Nat.not_lt.mp fun short => ?_)
    have failed := stuck short
    rw [all (s.allocs + m) (by omega) (by omega)] at failed
    cases failed
  · rintro rfl i after before
    obtain ⟨j,rfl⟩ := Nat.exists_eq_add_of_le after
    exact going j (by omega)

theorem all_sent (course : Course.Single L s k s' result m) : AllSent L s s' ↔ ∀ j < m, (L.udpSend (s.sends + j)).err = 0 := by
  have sends := course.sends
  constructor
  · intro all j small
    exact all (s.sends + j) (by omega) (by omega)
  · intro all i after before
    obtain ⟨j,rfl⟩ := Nat.exists_eq_add_of_le after
    exact all j (by omega)

theorem short_iff (course : Course.Single L s k s' result m) : (∃ j < k, L.pbufAlloc (s.allocs + j) = false) ↔ m < k := by
  constructor
  · rintro ⟨j,small,failed⟩
    refine Nat.lt_of_not_le fun all => ?_
    rw [course.going j (by omega)] at failed
    cases failed
  · intro short
    exact ⟨m,short,course.stuck short⟩

-- Memory runs short: nothing is reported, and the result is that of the first datagram.
theorem uniform_short (course : Course.Single L s k s' result m) (short : m < k) : Uniform L s k ↔ result ≠ espconnOk := by
  have failing := course.short_iff.mpr short
  have some_fails : ¬ ∀ j < k, L.pbufAlloc (s.allocs + j) = true ∧ (L.udpSend (s.sends + j)).err = 0 := by
    obtain ⟨j,small,failed⟩ := failing
    intro all
    rw [(all j small).1] at failed
    cases failed
  unfold Uniform
  rw [or_iff_right some_fails,and_iff_left fun _ => .inl failing]
  rcases Nat.eq_zero_or_pos m with rfl | begun
  · have first := course.stuck short
    rw [Nat.add_zero] at first
    simp [first,course.none rfl]
  · have first := course.going 0 begun
    rw [Nat.add_zero] at first
    simp [first,course.some begun]

-- All datagrams were handed over: the result is that of the first of them, and
-- sent_callback depends on the last.
theorem uniform_all (course : Course.Single L s k s' result k) (begun : 0 < k) : Uniform L s k ↔
    (∀ j < k, (L.udpSend (s.sends + j)).err = 0) ∨
    result ≠ espconnOk ∧ ¬ ((L.udpSend (s.sends + k - 1)).err = 0 ∧ s.sentCallback = true) := by
  have first := course.going 0 begun
  rw [Nat.add_zero] at first
  have enough : ¬ ∃ j < k, L.pbufAlloc (s.allocs + j) = false := fun short => Nat.lt_irrefl k (course.short_iff.mp short)
  have sent : (∀ j < k, L.pbufAlloc (s.allocs + j) = true ∧ (L.udpSend (s.sends + j)).err = 0) ↔
      ∀ j < k, (L.udpSend (s.sends + j)).err = 0 :=
    ⟨fun all j small => (all j small).2,fun all j small => ⟨course.going j small,all j small⟩⟩
  unfold Uniform
  rw [sent]
  simp only [first,true_and,enough,false_or]
  refine or_congr_right (and_congr (not_congr (course.some begun).symm) ?_)
  tauto

end Course.Single

theorem Course.splits_iff (course : Course L opt s data k s' result m) (single : s.twice L opt = false)
    (count : pieces 1472 data.length = k) (begun : 0 < k) : Splits L s data s' result ↔ Uniform L s k := by
  have one := course.single single
  have cut : ∃ parts rest, Cut s s' data parts rest ∧ (AllAllocated L s s' → rest = []) := by
    refine ⟨_,_,course.cut single count,fun all => ?_⟩
    apply List.drop_eq_nil_of_le
    rw [one.all_allocated.mp all,←count]
    exact pieces_covers (by decide) _
  have shape : Splits L s data s' result ↔
      ((m = k ∧ ∀ j < m, (L.udpSend (s.sends + j)).err = 0) → s'.called = s.called + if s.sentCallback = true then 1 else 0) ∧
      (¬ (m = k ∧ ∀ j < m, (L.udpSend (s.sends + j)).err = 0) → s'.called = s.called) ∧
      (result = espconnOk ↔ m = k ∧ ∀ j < m, (L.udpSend (s.sends + j)).err = 0) := by
    rw [←one.all_allocated,←one.all_sent]
    exact ⟨fun splits => ⟨splits.once,splits.never,splits.ok⟩,fun ⟨once,never,ok⟩ => ⟨cut,once,never,ok⟩⟩
  rw [shape,one.called]
  rcases Nat.lt_or_eq_of_le one.reached with short | rfl
  · rw [one.uniform_short short]
    have other : m ≠ k := Nat.ne_of_lt short
    simp [other]
  · rw [one.uniform_all begun]
    have last (all : ∀ j < m, (L.udpSend (s.sends + j)).err = 0) : (L.udpSend (s.sends + m - 1)).err = 0 := by
      rw [Nat.add_sub_assoc begun]
      exact all (m - 1) (by omega)
    have first (all : ∀ j < m, (L.udpSend (s.sends + j)).err = 0) : result = espconnOk := (one.some begun).mpr (all 0 begun)
    simp only [true_and]
    generalize (∀ j < m, (L.udpSend (s.sends + j)).err = 0) = all at last first ⊢
    by_cases well : all
    · simp [well,last well,first well]
    · by_cases reported : (L.udpSend (s.sends + m - 1)).err = 0 ∧ s.sentCallback = true <;> simp [well,reported]

end Single

-- A call always comes to an end; what it reports is right if and only if its datagrams
-- succeed or fail together.
theorem split_iff (L : UdpStack) (s : UdpMsg) (data : List UInt8) (length : UInt16) (whole : data.length = length.toNat)
    (positive : length ≠ 0) (single : L.duplicates s.remoteIp = false) :
    ∃ s' result, (∀ turns, pieces 1472 data.length < turns → espconnUdpSent L turns data length s = some (s',result)) ∧
      (Splits L s data s' result ↔ Uniform L s (pieces 1472 data.length)) := by
  obtain ⟨s',result,m,ran,course⟩ := transmit_course (L:=L) (s:=s) .send whole positive rfl
  have begun : 0 < pieces 1472 data.length := by
    have covered := pieces_covers (by decide : 0 < 1472) data.length
    have some : length.toNat ≠ 0 := fun none => positive (UInt16.toNat_inj.mp none)
    refine Nat.pos_of_ne_zero fun none => ?_
    rw [none] at covered
    omega
  exact ⟨s',result,ran,course.splits_iff single rfl begun⟩

def station (failing : List Nat) : UdpStack where
  opmode := 1
  defaultInterface := 0
  present _ := true
  up _ := true
  isBroadcast _ _ := false
  pbufAlloc _ := true
  udpSend i := if i ∈ failing then ⟨-1,1,one_held⟩ else ⟨0,1,one_held⟩

def talking : UdpMsg := ⟨0x08080808,53,.connect,true,[],0,0,0,0,some .sta,0,0,[],0⟩

def byteMore : List UInt8 := List.replicate 1473 0

theorem byteMore_length : byteMore.length = (1473 : UInt16).toNat := List.length_replicate

theorem byteMore_pieces : pieces 1472 byteMore.length = 2 := by
  rw [byteMore_length]
  rfl

theorem byteMore_splits : ∃ s' result, (∀ turns, 2 < turns → espconnUdpSent (station []) turns byteMore 1473 talking = some (s',result)) ∧
    Splits (station []) talking byteMore s' result := by
  obtain ⟨s',result,ran,exactly⟩ := split_iff (station []) talking byteMore 1473 byteMore_length (by decide) rfl
  rw [byteMore_pieces] at ran exactly
  exact ⟨s',result,ran,exactly.mpr (.inl fun _ _ => ⟨rfl,rfl⟩)⟩

-- The second datagram is lost, and ESPCONN_OK is the result.
theorem second_lost : ∃ s' result, (∀ turns, 2 < turns → espconnUdpSent (station [1]) turns byteMore 1473 talking = some (s',result)) ∧
    result = espconnOk ∧ ¬ AllSent (station [1]) talking s' ∧ ¬ Splits (station [1]) talking byteMore s' result := by
  obtain ⟨s',result,m,ran,course⟩ := transmit_course (L:=station [1]) (s:=talking) .send byteMore_length (by decide) byteMore_pieces
  have one := course.single rfl
  obtain rfl : m = 2 := by
    refine Nat.le_antisymm one.reached (Nat.not_lt.mp fun short => ?_)
    cases one.stuck short
  have ok : result = espconnOk := (one.some (by decide)).mpr rfl
  have lost : ¬ AllSent (station [1]) talking s' := by
    rw [one.all_sent]
    intro all
    cases all 1 (by decide)
  exact ⟨s',result,ran,ok,lost,fun splits => lost (splits.ok.mp ok).2⟩

end NonosLinkLayer.Espconn.UdpMsg
