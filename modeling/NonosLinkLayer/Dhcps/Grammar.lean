import NonosLinkLayer.Base.TagLength
import NonosLinkLayer.Dhcps.Messages

namespace NonosLinkLayer.Dhcps
open ByteMemory TagLength

def due (type : Option UInt8) (requested : Option UInt32) (clientAddress : UInt32) (renew : Bool) : Answer :=
  match type with
  | none => .idle
  | some type =>
    if type.toUInt16 = dhcpDiscover then .offer
    else if type.toUInt16 = dhcpRelease then .release
    else if type.toUInt16 = dhcpRequest then
      match requested with
      | some addr => if addr = clientAddress then .ack else .nak
      | none => if renew then .ack else .nak
    else .idle

-- At most one message type, of one byte, and at most one requested address, of four.
structure Carries (fields : List Field) (type : Option UInt8) (requested : Option UInt32) : Prop where
  types : values dhcpOptionMsgType fields = type.toList.map fun t => [t]
  addresses : values dhcpOptionReqIpaddr fields = requested.toList.map bytes32

def Reading.after (r : Reading) (type : Option UInt8) (requested : Option UInt32) : Reading :=
  ⟨type.elim r.type UInt8.toUInt16,requested.elim r.requested some⟩

-- The loop takes a pad for an option with a length, which is harmless for two of
-- them in a row, and for one that the list ends with or nearly.
def Unshifted (behind : Option (List UInt8)) : List Field → Prop
  | [] => True
  | .option .. :: rest => Unshifted behind rest
  | [.pad] => ∀ more, behind = some more → more.length ≤ 255
  | .pad :: .pad :: rest => Unshifted behind rest
  | .pad :: .option .. :: _ => False

section Grammar
variable {m : Memory} {client : UInt32} {fin : Int} {turns optptr : Nat} {r : Reading} {renew : Bool}
  {fields : List Field} {behind : Option (List UInt8)} {type : Option UInt8} {requested : Option UInt32}

theorem turn_option {code : UInt8} {data : List UInt8} {rest : List Field} {plain : code ≠ TagLength.pad ∧ code ≠ TagLength.last}
    {short : data.length < 256} (here : m optptr = code) (spells : Spells m (optptr+2) data)
    (carries : Carries (.option code data plain short :: rest) type requested) (r : Reading) :
    ∃ type' requested', Carries rest type' requested' ∧
      r.after type requested = (r.turn m optptr).after type' requested' := by
  obtain ⟨types,asked⟩ := carries
  rw [values_cons_option] at types asked
  unfold Reading.turn
  rw [here]
  by_cases typed : code = dhcpOptionMsgType
  · rw [if_pos typed] at types
    rw [typed,if_neg (by decide)] at asked
    rw [if_pos typed]
    cases type with
    | none => cases types
    | some t =>
      obtain ⟨rfl,none_⟩ := List.cons.inj types
      refine ⟨none,requested,⟨none_,asked⟩,?_⟩
      rw [spells.1]
      rfl
  · rw [if_neg typed] at types
    rw [if_neg typed]
    by_cases wanted : code = dhcpOptionReqIpaddr
    · rw [if_pos wanted] at asked
      rw [if_pos wanted]
      cases requested with
      | none => cases asked
      | some addr =>
        obtain ⟨rfl,none_⟩ := List.cons.inj asked
        refine ⟨type,none,⟨types,none_⟩,?_⟩
        rw [read32_spells spells]
        rfl
    · rw [if_neg wanted] at asked
      rw [if_neg wanted]
      exact ⟨type,requested,⟨types,asked⟩,rfl⟩

theorem turn_pad (here : m optptr = TagLength.pad) (r : Reading) : r.turn m optptr = r := by
  unfold Reading.turn
  rw [here,if_neg (by decide),if_neg (by decide)]

theorem carries_nil (carries : Carries [] type requested) (r : Reading) : r.after type requested = r := by
  cases type with
  | some t => cases carries.types
  | none =>
    cases requested with
    | some addr => cases carries.addresses
    | none => rfl

theorem visited_stop (stop : fin ≤ optptr) : visited m fin turns optptr = [] := by
  cases turns with
  | zero => rfl
  | succ turns =>
    unfold visited
    rw [if_neg (by omega)]

theorem visited_last (here : m optptr = dhcpOptionEnd) : visited m fin turns optptr = [] := by
  cases turns with
  | zero => rfl
  | succ turns =>
    unfold visited
    rw [if_pos here,ite_self]

theorem visited_more (inside : (optptr : Int) < fin) (other : m optptr ≠ dhcpOptionEnd) :
    visited m fin (turns+1) optptr = optptr :: visited m fin turns (optptr + (m (optptr+1)).toNat + 2) := by
  rw [visited,if_pos inside,if_neg other]

theorem visited_option (inside : (optptr : Int) < fin) (other : m optptr ≠ dhcpOptionEnd) {data : List UInt8}
    (length : m (optptr+1) = UInt8.ofNat data.length) (short : data.length < 256) :
    visited m fin (turns+1) optptr = optptr :: visited m fin turns (optptr + 1 + 1 + data.length) := by
  have next : optptr + (m (optptr+1)).toNat + 2 = optptr + 1 + 1 + data.length := by
    rw [length,length_byte short]
    omega
  rw [visited_more inside other,next]

theorem pad_other (here : m optptr = TagLength.pad) : m optptr ≠ dhcpOptionEnd := by
  rw [here]
  decide

theorem visited_pads (inside : (optptr : Int) < fin) (here : m optptr = TagLength.pad) (second : m (optptr+1) = TagLength.pad) :
    visited m fin (turns+1) optptr = optptr :: visited m fin turns (optptr + 1 + 1) := by
  have next : optptr + (m (optptr+1)).toNat + 2 = optptr + 1 + 1 := by
    rw [second,show (TagLength.pad).toNat = 0 from rfl]
  rw [visited_more inside (pad_other here),next]

theorem pad_reads {next : UInt8} (inside : (optptr : Int) < fin) (here : m optptr = TagLength.pad) (behind : m (optptr+1) = next)
    (nonzero : next ≠ 0) (enough : turns ≠ 0) : ∃ q ∈ visited m fin turns optptr, m q = TagLength.pad ∧ m (q+1) ≠ 0 := by
  obtain ⟨n,rfl⟩ := Nat.exists_eq_succ_of_ne_zero enough
  exact ⟨optptr,by simp [visited_more inside (pad_other here)],here,behind ▸ nonzero⟩

theorem walk_fields (unshifted : Unshifted behind fields) (spells : Spells m optptr (area fields behind))
    (ends : fin = optptr + (area fields behind).length) (enough : (area fields behind).length ≤ turns)
    (carries : Carries fields type requested) :
    (visited m fin turns optptr).foldl (Reading.turn m) r = r.after type requested := by
  induction fields using Unshifted.induct generalizing optptr turns r type requested with
  | case1 =>
    rw [carries_nil carries r]
    cases behind with
    | none => rw [visited_stop (by simpa [area] using ends.le)]; rfl
    | some more => rw [visited_last spells.1]; rfl
  | case2 code data plain short rest ih =>
    rw [area_option] at spells ends enough
    obtain ⟨here,length,behind_⟩ := spells
    obtain ⟨value,others⟩ := spells_append.mp behind_
    simp only [List.length_cons,List.length_append] at ends enough
    obtain ⟨n,rfl⟩ := Nat.exists_eq_succ_of_ne_zero (show turns ≠ 0 by omega)
    obtain ⟨type',requested',left,same⟩ := turn_option here value carries r
    rw [visited_option (by omega) (here ▸ plain.2) length short,List.foldl_cons,same]
    exact ih unshifted others (by omega) (by omega) left
  | case3 =>
    have alone : r.after type requested = r := carries_nil ⟨carries.types,carries.addresses⟩ r
    rw [area_pad] at spells ends enough
    simp only [List.length_cons] at ends enough
    obtain ⟨n,rfl⟩ := Nat.exists_eq_succ_of_ne_zero (show turns ≠ 0 by omega)
    rw [visited_more (by omega) (pad_other spells.1),List.foldl_cons,turn_pad spells.1,alone]
    have past : fin ≤ optptr + (m (optptr+1)).toNat + 2 := by
      cases behind with
      | none =>
        rw [show (area [] none).length = 0 from rfl] at ends
        omega
      | some more =>
        have near := unshifted more rfl
        rw [show (area [] (some more)).length = more.length + 1 from rfl] at ends
        rw [show m (optptr+1) = 255 from spells.2.1,show (255 : UInt8).toNat = 255 from rfl]
        omega
    rw [visited_stop (by exact_mod_cast past)]
    rfl
  | case4 rest ih =>
    rw [area_pad,area_pad] at spells ends enough
    obtain ⟨here,second,others⟩ := spells
    simp only [List.length_cons] at ends enough
    obtain ⟨n,rfl⟩ := Nat.exists_eq_succ_of_ne_zero (show turns ≠ 0 by omega)
    rw [visited_pads (by omega) here second,List.foldl_cons,turn_pad here]
    exact ih unshifted others (by omega) (by omega) ⟨carries.types,carries.addresses⟩
  | case5 => exact absurd unshifted id

theorem found_carried {len : Int16} (unshifted : Unshifted behind fields) (spells : Spells m optptr (area fields behind))
    (fits : len.toInt = (area fields behind).length) (carries : Carries fields type requested) :
    found m optptr len = Reading.after ⟨0,none⟩ type requested :=
  walk_fields unshifted spells (by rw [fits]) (by rw [fits]; exact (Int.toNat_natCast _).ge) carries

-- Of an undisturbed reading only a requested address that comes without one of the
-- types the switch knows leads to another answer than is due.
theorem carried_answer (type : Option UInt8) (requested : Option UInt32) (client : UInt32) (renew : Bool) :
    (Reading.after ⟨0,none⟩ type requested).answer client renew = due type requested client renew ↔
      requested = none ∨ type = some 1 ∨ type = some 3 ∨ type = some 4 ∨ type = some 7 := by
  cases type with
  | none =>
    cases requested with
    | none => exact iff_of_true rfl (.inl rfl)
    | some addr =>
      refine iff_of_false ?_ (by simp)
      by_cases same : addr = client
      · simp [same,Reading.after,Reading.answer,due,dhcpDiscover,dhcpDecline,dhcpRelease]
      · simp [same,Reading.after,Reading.answer,due,dhcpDiscover,dhcpDecline,dhcpRelease]
  | some t =>
    have code : ∀ k : UInt8, t.toUInt16 = k.toUInt16 ↔ t = k := fun k => UInt8.toUInt16_inj
    have discover : t.toUInt16 = dhcpDiscover ↔ t = 1 := code 1
    have request : t.toUInt16 = dhcpRequest ↔ t = 3 := code 3
    have decline : t.toUInt16 = dhcpDecline ↔ t = 4 := code 4
    have release : t.toUInt16 = dhcpRelease ↔ t = 7 := code 7
    unfold Reading.answer Reading.after due
    simp only [Option.elim_some,discover,request,decline,release,Option.some.injEq]
    by_cases one : t = 1
    · simp [one]
    by_cases three : t = 3
    · cases requested <;> simp [three]
    by_cases four : t = 4
    · simp [four]
    by_cases seven : t = 7
    · simp [seven]
    cases requested with
    | none => simp [one,three,four,seven]
    | some addr => by_cases same : addr = client <;> simp [one,three,four,seven,same]

-- In any other list the loop comes to a pad and takes the byte behind it for a length.
theorem shifted_reads (shifted : ¬ Unshifted behind fields) (spells : Spells m optptr (area fields behind))
    (ends : fin = optptr + (area fields behind).length) (enough : (area fields behind).length ≤ turns) :
    ∃ q ∈ visited m fin turns optptr, m q = TagLength.pad ∧ m (q+1) ≠ 0 := by
  induction fields using Unshifted.induct generalizing optptr turns with
  | case1 => exact absurd trivial shifted
  | case2 code data plain short rest ih =>
    rw [area_option] at spells ends enough
    obtain ⟨here,length,behind_⟩ := spells
    obtain ⟨_,others⟩ := spells_append.mp behind_
    simp only [List.length_cons,List.length_append] at ends enough
    obtain ⟨n,rfl⟩ := Nat.exists_eq_succ_of_ne_zero (show turns ≠ 0 by omega)
    rw [visited_option (by omega) (here ▸ plain.2) length short]
    obtain ⟨q,member,reads⟩ := @ih n _ shifted others (by omega) (by omega)
    exact ⟨q,List.mem_cons_of_mem _ member,reads⟩
  | case3 =>
    rw [area_pad] at spells ends enough
    simp only [List.length_cons] at ends enough
    cases behind with
    | none => exact absurd (fun _ none_ => by cases none_) shifted
    | some more => exact pad_reads (by omega) spells.1 spells.2.1 (by decide) (by omega)
  | case4 rest ih =>
    rw [area_pad,area_pad] at spells ends enough
    obtain ⟨here,second,others⟩ := spells
    simp only [List.length_cons] at ends enough
    obtain ⟨n,rfl⟩ := Nat.exists_eq_succ_of_ne_zero (show turns ≠ 0 by omega)
    rw [visited_pads (by omega) here second]
    obtain ⟨q,member,reads⟩ := @ih n _ shifted others (by omega) (by omega)
    exact ⟨q,List.mem_cons_of_mem _ member,reads⟩
  | case5 code data plain short rest =>
    rw [area_pad,area_option] at spells ends enough
    simp only [List.length_cons] at ends enough
    exact pad_reads (by omega) spells.1 spells.2.1 plain.1 (by omega)

-- parse_options on a list of options comes to an end, and on one that does not get it
-- out of step it answers as is due exactly if the address is not asked for by a message
-- of another type.
theorem options_answered (fields : List Field) (behind : Option (List UInt8)) (type : Option UInt8)
    (requested : Option UInt32) (carries : Carries fields type requested) (m : Memory) (optptr : Nat)
    (spells : Spells m optptr (area fields behind)) (len : Int16) (fits : len.toInt = (area fields behind).length)
    (client : UInt32) (renew : Bool) :
    (∀ more, (optionsLoop client m (optptr + len.toInt) (len.toInt.toNat + more) optptr ⟨0,.idle⟩).answer renew =
      parseOptions client renew m optptr len) ∧
    (Unshifted behind fields → (parseOptions client renew m optptr len = due type requested client renew ↔
      requested = none ∨ type = some 1 ∨ type = some 3 ∨ type = some 4 ∨ type = some 7)) := by
  refine ⟨parseOptions_turns renew len,fun unshifted => ?_⟩
  rw [parseOptions_found,found_carried unshifted spells fits carries]
  exact carried_answer type requested client renew

theorem byte_short : 1 < 256 := by decide

theorem word_short : 4 < 256 := by decide

def typeOption (t : UInt8) : Field := .option dhcpOptionMsgType [t] (by decide) byte_short
def addressOption (addr : UInt32) : Field := .option dhcpOptionReqIpaddr (bytes32 addr) (by decide) word_short

def spelled (fields : List Field) : Memory := write (fun _ => 0) (optionsAt + 4) (area fields (some []))

-- A request, filled up to an even length in the middle.
theorem request_answered :
    parseOptions 0x0204a8c0 false (spelled [typeOption 3,.pad,.pad,addressOption 0x0204a8c0]) (optionsAt + 4) 12 =
      due (some 3) (some 0x0204a8c0) 0x0204a8c0 false :=
  ((options_answered [typeOption 3,.pad,.pad,addressOption 0x0204a8c0] (some []) (some 3) (some 0x0204a8c0)
    ⟨rfl,rfl⟩ _ _ (write_spells _ _ _) 12 rfl 0x0204a8c0 false).2 trivial).mpr (.inr (.inr (.inl rfl)))

-- The pad is read with the code of the type as its length, which leads behind the end.
theorem padded_discover_idle : ¬∀ fields behind type requested, Carries fields type requested → ∀ m optptr,
    Spells m optptr (area fields behind) → ∀ len : Int16, len.toInt = (area fields behind).length → ∀ client renew,
      parseOptions client renew m optptr len = due type requested client renew := by
  intro always
  have offer := always [.pad,typeOption 1] (some []) (some 1) none ⟨rfl,rfl⟩ (spelled [.pad,typeOption 1]) (optionsAt + 4)
    (write_spells _ _ _) 5 rfl 0 false
  exact absurd offer (by decide)

end Grammar

end NonosLinkLayer.Dhcps
