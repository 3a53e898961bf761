import Mathlib.Data.List.Basic

namespace TagLength

-- Options as BOOTP and DHCP write them: a code, the number of the data bytes and
-- the data. Two codes stand alone, one that fills up and one that ends the list.
def pad : UInt8 := 0
def last : UInt8 := 255

inductive Field where
  | pad
  | option (code : UInt8) (data : List UInt8) (plain : code ≠ TagLength.pad ∧ code ≠ last) (short : data.length < 256)

def Field.bytes : Field → List UInt8
  | .pad => [TagLength.pad]
  | .option code data _ _ => code :: UInt8.ofNat data.length :: data

def area (fields : List Field) (behind : Option (List UInt8)) : List UInt8 :=
  fields.flatMap Field.bytes ++ behind.elim [] (last :: ·)

def values (code : UInt8) (fields : List Field) : List (List UInt8) :=
  fields.filterMap fun
    | .pad => none
    | .option c data _ _ => if c = code then some data else none

def decode : Nat → List UInt8 → Option (List Field)
  | 0,_ => none
  | _+1,[] => some []
  | turns+1,code :: rest =>
    if ends : code = last then some []
    else if filler : code = pad then (decode turns rest).map (Field.pad :: ·)
    else
      match rest with
      | [] => none
      | n :: rest =>
        if n.toNat ≤ rest.length then
          (decode turns (rest.drop n.toNat)).map
            (Field.option code (rest.take n.toNat) ⟨filler,ends⟩
              (Nat.lt_of_le_of_lt (List.length_take_le ..) n.toNat_lt) :: ·)
        else none

section Decode
variable {fields : List Field} {behind : Option (List UInt8)} {code : UInt8} {data : List UInt8} {turns : Nat}

theorem values_cons_option {c : UInt8} {plain : c ≠ pad ∧ c ≠ last} {short : data.length < 256} :
    values code (.option c data plain short :: fields) =
      if c = code then data :: values code fields else values code fields := by
  unfold values
  by_cases same : c = code
  · simp [same]
  · simp [same]

theorem area_option {plain : code ≠ pad ∧ code ≠ last} {short : data.length < 256} :
    area (.option code data plain short :: fields) behind =
      code :: UInt8.ofNat data.length :: (data ++ area fields behind) := by
  simp [area,Field.bytes]

theorem area_pad : area (.pad :: fields) behind = pad :: area fields behind := rfl

theorem area_behind (fields : List Field) (behind : List UInt8) :
    area fields (some behind) = area fields (some []) ++ behind := by
  simp [area]

theorem fields_length (fields : List Field) : fields.length ≤ (fields.flatMap Field.bytes).length := by
  induction fields with
  | nil => exact Nat.le_refl _
  | cons field fields ih =>
    rw [List.flatMap_cons,List.length_append,List.length_cons]
    cases field with
    | pad => simp only [Field.bytes,List.length_singleton]; omega
    | option code data plain short => simp only [Field.bytes,List.length_cons]; omega

theorem area_length (fields : List Field) (behind : Option (List UInt8)) : fields.length ≤ (area fields behind).length := by
  unfold area
  rw [List.length_append]
  exact Nat.le_add_right_of_le (fields_length fields)

theorem length_byte (short : data.length < 256) : (UInt8.ofNat data.length).toNat = data.length :=
  UInt8.toNat_ofNat_of_lt' short

theorem decode_area (enough : fields.length < turns) : decode turns (area fields behind) = some fields := by
  induction fields generalizing turns with
  | nil =>
    obtain ⟨n,rfl⟩ := Nat.exists_eq_succ_of_ne_zero (show turns ≠ 0 by omega)
    cases behind with
    | none => rfl
    | some rest => exact dif_pos rfl
  | cons field fields ih =>
    obtain ⟨n,rfl⟩ := Nat.exists_eq_succ_of_ne_zero (show turns ≠ 0 by omega)
    have rest : decode n (area fields behind) = some fields := ih (by rw [List.length_cons] at enough; omega)
    cases field with
    | pad =>
      rw [area_pad,decode,dif_neg (by decide),dif_pos rfl,rest]
      rfl
    | option code data plain short =>
      rw [area_option,decode,dif_neg plain.2,dif_neg plain.1]
      dsimp only
      simp only [length_byte short,List.take_left,List.drop_left,rest]
      rw [if_pos (by rw [List.length_append]; omega)]
      rfl

theorem area_inj {fields' : List Field} {behind' : Option (List UInt8)} (same : area fields behind = area fields' behind') :
    fields = fields' := by
  have one : decode ((area fields behind).length + 1) (area fields behind) = some fields :=
    decode_area (Nat.lt_succ_of_le (area_length fields behind))
  have two : decode ((area fields' behind').length + 1) (area fields' behind') = some fields' :=
    decode_area (Nat.lt_succ_of_le (area_length fields' behind'))
  rw [same] at one
  exact Option.some.inj (one.symm.trans two)

end Decode

end TagLength
