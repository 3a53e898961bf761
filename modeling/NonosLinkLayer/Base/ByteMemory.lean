import Mathlib.Algebra.Group.Nat.Defs
import Mathlib.Logic.Function.Basic
import Mathlib.Data.List.Basic

namespace ByteMemory

-- Memory as the CPU sees it from some pointer on. Multi-byte values are little
-- endian, so a field that came off the wire is read with its bytes reversed.
abbrev Memory := Nat → UInt8

def read16 (m : Memory) (pos : Nat) : UInt16 :=
  UInt16.ofNat ((m pos).toNat + 256 * (m (pos+1)).toNat)

def read32 (m : Memory) (pos : Nat) : UInt32 :=
  UInt32.ofNat ((m pos).toNat + 256 * (m (pos+1)).toNat + 65536 * (m (pos+2)).toNat + 16777216 * (m (pos+3)).toNat)

def bytes16 (v : UInt16) : List UInt8 := [UInt8.ofNat v.toNat,UInt8.ofNat (v.toNat / 256)]

def bytes32 (v : UInt32) : List UInt8 :=
  [UInt8.ofNat v.toNat,UInt8.ofNat (v.toNat / 256),UInt8.ofNat (v.toNat / 65536),UInt8.ofNat (v.toNat / 16777216)]

def write (m : Memory) : Nat → List UInt8 → Memory
  | _,[] => m
  | pos,b :: rest => Function.update (write m (pos+1) rest) pos b

def Spells (m : Memory) : Nat → List UInt8 → Prop
  | _,[] => True
  | pos,b :: rest => m pos = b ∧ Spells m (pos+1) rest

def swap16 (v : UInt16) : UInt16 := (v &&& 0xff) <<< 8 ||| (v &&& 0xff00) >>> 8

def swap32 (v : UInt32) : UInt32 :=
  (v &&& 0xff) <<< 24 ||| (v &&& 0xff00) <<< 8 ||| (v &&& 0xff0000) >>> 8 ||| (v &&& 0xff000000) >>> 24

-- The number with the four bytes, the highest first.
def word (a b c d : Nat) : Nat := ((a * 256 + b) * 256 + c) * 256 + d

theorem write_apart (apart : i < pos ∨ pos + bytes.length ≤ i) : write m pos bytes i = m i := by
  induction bytes generalizing pos with
  | nil => rfl
  | cons b rest ih =>
    simp only [List.length_cons] at apart
    have other : i ≠ pos := by omega
    rw [write,Function.update_of_ne other]
    exact ih (by omega)

theorem read16_write16 (m : Memory) (pos : Nat) (v : UInt16) : read16 (write m pos (bytes16 v)) pos = v := by
  have small := v.toNat_lt
  apply UInt16.toNat_inj.mp
  simp [read16,bytes16,write]
  omega

theorem read32_write32 (m : Memory) (pos : Nat) (v : UInt32) : read32 (write m pos (bytes32 v)) pos = v := by
  have small := v.toNat_lt
  apply UInt32.toNat_inj.mp
  simp [read32,bytes32,write]
  omega

theorem spells_congr {bytes : List UInt8} (spells : Spells m pos bytes)
    (same : ∀ k < bytes.length, m' (pos+k) = m (pos+k)) : Spells m' pos bytes := by
  induction bytes generalizing pos with
  | nil => trivial
  | cons b rest ih =>
    refine ⟨(same 0 (Nat.succ_pos _)).trans spells.1,ih spells.2 fun k small => ?_⟩
    rw [Nat.add_assoc,Nat.add_comm 1 k]
    exact same (k+1) (Nat.succ_lt_succ small)

theorem spells_append {xs ys : List UInt8} : Spells m pos (xs ++ ys) ↔ Spells m pos xs ∧ Spells m (pos + xs.length) ys := by
  induction xs generalizing pos with
  | nil => simp [Spells]
  | cons b rest ih =>
    have place : pos + (rest.length + 1) = pos + 1 + rest.length := by omega
    simp only [List.cons_append,Spells,ih,List.length_cons,place,and_assoc]

theorem write_spells (m : Memory) (pos : Nat) (bytes : List UInt8) : Spells (write m pos bytes) pos bytes := by
  induction bytes generalizing m pos with
  | nil => trivial
  | cons b rest ih =>
    refine ⟨Function.update_self ..,?_⟩
    have same : Spells (write m (pos+1) rest) (pos+1) rest := ih m (pos+1)
    exact spells_congr same fun k _ => Function.update_of_ne (by omega) ..

theorem read32_spells (spells : Spells m pos (bytes32 v)) : read32 m pos = v := by
  obtain ⟨zero,one,two,three,_⟩ := spells
  have small := v.toNat_lt
  apply UInt32.toNat_inj.mp
  simp only [read32,zero,one,two,three]
  simp
  omega

theorem bytes32_inj (same : bytes32 v = bytes32 w) : v = w := by
  have one := read32_spells (v:=v) (write_spells (fun _ => 0) 0 (bytes32 v))
  have two := read32_spells (v:=w) (write_spells (fun _ => 0) 0 (bytes32 w))
  rw [←one,same,two]

theorem spells_unique {xs ys : List UInt8} (one : Spells m pos xs) (two : Spells m pos ys) (same : xs.length = ys.length) :
    xs = ys := by
  induction xs generalizing pos ys with
  | nil => exact (List.length_eq_zero_iff.mp same.symm).symm
  | cons b rest ih =>
    cases ys with
    | nil => cases same
    | cons c others => rw [←one.1,←two.1,ih one.2 two.2 (Nat.succ.inj same)]

theorem exists_spells (m : Memory) (pos n : Nat) : ∃ bytes : List UInt8, bytes.length = n ∧ Spells m pos bytes := by
  induction n generalizing pos with
  | zero => exact ⟨[],rfl,trivial⟩
  | succ n ih =>
    obtain ⟨rest,length,spells⟩ := ih (pos+1)
    exact ⟨m pos :: rest,congrArg (· + 1) length,rfl,spells⟩

theorem bytes16_read16 (m : Memory) (pos : Nat) : bytes16 (read16 m pos) = [m pos,m (pos+1)] := by
  have low := (m pos).toNat_lt
  have high := (m (pos+1)).toNat_lt
  simp only [bytes16,read16,UInt16.toNat_ofNat']
  refine congrArg₂ _ ?_ (congrArg₂ _ ?_ rfl)
  · apply UInt8.toNat_inj.mp
    simp
  · apply UInt8.toNat_inj.mp
    simp
    omega

theorem bytes32_read32 (m : Memory) (pos : Nat) :
    bytes32 (read32 m pos) = [m pos,m (pos+1),m (pos+2),m (pos+3)] := by
  have zero := (m pos).toNat_lt
  have one := (m (pos+1)).toNat_lt
  have two := (m (pos+2)).toNat_lt
  have three := (m (pos+3)).toNat_lt
  simp only [bytes32,read32,UInt32.toNat_ofNat']
  refine congrArg₂ _ ?_ (congrArg₂ _ ?_ (congrArg₂ _ ?_ (congrArg₂ _ ?_ rfl))) <;>
    apply UInt8.toNat_inj.mp <;> simp <;> omega

theorem read16_congr (same : ∀ k < 2, m (pos+k) = m' (pos+k)) : read16 m pos = read16 m' pos := by
  have zero := same 0 (by omega)
  have one := same 1 (by omega)
  simp only [Nat.add_zero] at zero
  simp only [read16,zero,one]

theorem read32_congr (same : ∀ k < 4, m (pos+k) = m' (pos+k)) : read32 m pos = read32 m' pos := by
  have zero := same 0 (by omega)
  simp only [Nat.add_zero] at zero
  simp only [read32,zero,same 1 (by omega),same 2 (by omega),same 3 (by omega)]

-- The two halves of the word do not overlap, so the `or` is a sum.
theorem swap16_toNat (v : UInt16) : (swap16 v).toNat = v.toNat % 256 * 256 + v.toNat / 256 := by
  have small := v.toNat_lt
  have low : v.toNat &&& 255 = v.toNat % 256 := Nat.and_two_pow_sub_one_eq_mod v.toNat 8
  have high : (v.toNat &&& 65280) >>> 8 = v.toNat / 256 := by
    have mask : 65280 >>> 8 = 2^8 - 1 := by decide
    rw [Nat.shiftRight_and_distrib,Nat.shiftRight_eq_div_pow,mask,Nat.and_two_pow_sub_one_eq_mod]
    omega
  have sum := Nat.two_pow_add_eq_or_of_lt (i:=8) (b:=v.toNat / 256) (by omega) (v.toNat % 256)
  simp only [swap16,UInt16.toNat_or,UInt16.toNat_shiftLeft,UInt16.toNat_shiftRight,UInt16.toNat_and]
  simp [low,high]
  rw [Nat.shiftLeft_eq,Nat.mod_eq_of_lt (by omega),Nat.mul_comm,←sum]

theorem swap16_swap16 (v : UInt16) : swap16 (swap16 v) = v := by
  have small := v.toNat_lt
  apply UInt16.toNat_inj.mp
  rw [swap16_toNat,swap16_toNat]
  omega

theorem swap16_inj : swap16 v = swap16 w ↔ v = w :=
  ⟨fun same => by rw [←swap16_swap16 v,same,swap16_swap16],fun same => by rw [same]⟩

theorem exists_word (v : UInt32) : ∃ a b c d, a < 256 ∧ b < 256 ∧ c < 256 ∧ d < 256 ∧ v.toNat = word a b c d := by
  have small := v.toNat_lt
  refine ⟨v.toNat / 16777216,v.toNat / 65536 % 256,v.toNat / 256 % 256,v.toNat % 256,by omega,by omega,by omega,
    by omega,?_⟩
  unfold word
  omega

theorem and_shiftLeft (v mask k : Nat) : v &&& mask <<< k = (v >>> k &&& mask) <<< k := by
  apply Nat.eq_of_testBit_eq
  intro i
  simp only [Nat.testBit_and,Nat.testBit_shiftLeft,Nat.testBit_shiftRight]
  by_cases high : k ≤ i
  · simp [high]
  · simp [high]

theorem and_byte (v k : Nat) : v &&& 255 <<< k = v / 2^k % 256 * 2^k := by
  rw [and_shiftLeft,Nat.and_two_pow_sub_one_eq_mod _ 8,Nat.shiftRight_eq_div_pow,Nat.shiftLeft_eq]

theorem swap32_word (ha : a < 256) (hb : b < 256) (hc : c < 256) (hd : d < 256) (same : v.toNat = word a b c d) :
    (swap32 v).toNat = word d c b a := by
  have zero : v.toNat &&& 255 = d := by
    rw [Nat.and_two_pow_sub_one_eq_mod _ 8,same,word]
    omega
  have one : v.toNat &&& 65280 = c * 256 := by
    rw [show 65280 = 255 <<< 8 from rfl,and_byte,same,word]
    omega
  have two : v.toNat &&& 16711680 = b * 65536 := by
    rw [show 16711680 = 255 <<< 16 from rfl,and_byte,same,word]
    omega
  have three : v.toNat &&& 4278190080 = a * 16777216 := by
    rw [show 4278190080 = 255 <<< 24 from rfl,and_byte,same,word]
    omega
  have join : ∀ (k high low : Nat), low < 2^k → 2^k * high ||| low = 2^k * high + low :=
    fun k high low below => (Nat.two_pow_add_eq_or_of_lt below high).symm
  simp only [swap32,UInt32.toNat_or,UInt32.toNat_shiftLeft,UInt32.toNat_shiftRight,UInt32.toNat_and]
  simp [zero,one,two,three,Nat.shiftRight_eq_div_pow,Nat.shiftLeft_eq]
  have first : d * 16777216 % 4294967296 ||| c * 256 * 256 % 4294967296 = 65536 * (d * 256 + c) := by
    rw [show d * 16777216 % 4294967296 = 2^24 * d by omega,show c * 256 * 256 % 4294967296 = c * 65536 by omega,
      join _ _ _ (by omega)]
    omega
  have second : 65536 * (d * 256 + c) ||| b * 65536 / 256 = 256 * ((d * 256 + c) * 256 + b) := by
    rw [show b * 65536 / 256 = b * 256 by omega]
    exact (join 16 (d * 256 + c) (b * 256) (by omega)).trans (by omega)
  rw [first,second]
  exact (join 8 ((d * 256 + c) * 256 + b) a (by omega)).trans (by rw [word]; omega)

theorem swap32_swap32 (v : UInt32) : swap32 (swap32 v) = v := by
  obtain ⟨a,b,c,d,ha,hb,hc,hd,same⟩ := exists_word v
  apply UInt32.toNat_inj.mp
  rw [same]
  exact swap32_word hd hc hb ha (swap32_word ha hb hc hd same)

end ByteMemory
