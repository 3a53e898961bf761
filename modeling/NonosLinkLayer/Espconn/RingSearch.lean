import NonosLinkLayer.Espconn.RingBuffer
import NonosLinkLayer.Base.Turns

namespace NonosLinkLayer.Espconn
open RingQueue Turns

-- The plain search from `offset` on: the first place that holds `c`, or the length.
structure Searched (q : List UInt8) (c : UInt8) (offset i : Nat) : Prop where
  before : ∀ j, offset ≤ j → j < i → q[j]? ≠ some c
  place : (offset ≤ i ∧ q[i]? = some c) ∨ i = q.length

def memchr (block : Block) (p : Nat) (c : Int) (n : Nat) : Option (Option Nat) :=
  (block.read p n).map fun bytes => (bytes.findIdx? fun byte => byte == UInt8.ofInt c).map fun k => p + k

namespace RingBuf

-- Beside the result stand the places that memchr was given with the number of bytes.
def ringbufFindchr (rb : RingBuf) (c : Int) : Nat → Nat → Option (Nat × List (Nat × Nat))
  | 0,_ => none
  | turns+1,offset =>
    let bufend := rb.ringbufEnd
    let bytesUsed := rb.ringbufBytesUsed
    if offset ≥ bytesUsed then some (bytesUsed,[])
    else
      let start := (rb.tail + offset) % rb.ringbufBufferSize
      if bufend > start then do
        let n := chunk (bufend - start) (bytesUsed - offset)
        match ← memchr rb.buf start c n with
        | some found => some (sizeT (offset + (found - start)),[(start,n)])
        | none => (rb.ringbufFindchr c turns (offset + n)).map fun (i,looked) => (i,(start,n) :: looked)
      else none

def Occupied (rb : RingBuf) (p : Nat) : Prop := ∃ k < rb.contents.length, p = (rb.tail + k) % rb.size

variable {rb : RingBuf} {q : List UInt8} {c : UInt8} {offset i k n left : Nat}

theorem searched_end (q : List UInt8) (c : UInt8) (past : q.length ≤ offset) : Searched q c offset q.length :=
  ⟨fun _ _ _ => by omega,.inr rfl⟩

theorem searched_found (here : ((q.drop offset).take n).findIdx? (fun byte => byte == c) = some k) :
    Searched q c offset (offset + k) := by
  obtain ⟨inside,hit,missed⟩ := List.findIdx?_eq_some_iff_getElem.mp here
  rw [List.length_take,List.length_drop] at inside
  simp only [List.getElem_take,List.getElem_drop,beq_iff_eq] at hit missed
  refine ⟨fun j above below same => ?_,.inl ⟨by omega,?_⟩⟩
  · obtain ⟨d,rfl⟩ := Nat.exists_eq_add_of_le above
    obtain ⟨_,equal⟩ := List.getElem?_eq_some_iff.mp same
    exact missed d (by omega) equal
  · exact List.getElem?_eq_some_iff.mpr ⟨by omega,hit⟩

theorem searched_skip (none_ : ((q.drop offset).take n).findIdx? (fun byte => byte == c) = none)
    (later : Searched q c (offset + n) i) : Searched q c offset i := by
  have others := List.findIdx?_eq_none_iff.mp none_
  refine ⟨fun j above below same => ?_,later.place.imp_left fun there => ⟨by omega,there.2⟩⟩
  by_cases near : j < offset + n
  · obtain ⟨d,rfl⟩ := Nat.exists_eq_add_of_le above
    have member : c ∈ (q.drop offset).take n := by
      refine List.mem_of_getElem? (i:=d) ?_
      rw [List.getElem?_take_of_lt (by omega),List.getElem?_drop]
      exact same
    simpa using others c member
  · exact later.before j (by omega) below same

theorem Sound.memchr (sound : rb.Sound) (c : Int) (fits : (rb.tail + offset) % rb.size + n ≤ rb.size)
    (within : n ≤ rb.ringbufBytesUsed - offset) :
    memchr rb.buf ((rb.tail + offset) % rb.size) c n =
      some ((((rb.contents.drop offset).take n).findIdx? fun byte => byte == UInt8.ofInt c).map
        fun k => (rb.tail + offset) % rb.size + k) := by
  have most : rb.ringbufBytesUsed ≤ rb.buf.bytes.length := by
    rw [← sound.size]
    exact sound.used_lt.le
  have straight : (rb.tail + offset) % rb.size + n ≤ rb.buf.bytes.length := by rwa [← sound.size]
  have same : (rb.buf.bytes.drop ((rb.tail + offset) % rb.size)).take n = (rb.contents.drop offset).take n := by
    rw [sound.contents_circular,drop_circular most,take_circular within,← circular_mod,← sound.size,circular_straight straight]
  rw [Espconn.memchr,rb.buf.read_fits straight,same,Option.map_some]

theorem Sound.occupied (sound : rb.Sound) (fits : (rb.tail + offset) % rb.size + n ≤ rb.size)
    (within : offset + n ≤ rb.ringbufBytesUsed) (less : k < n) : rb.Occupied ((rb.tail + offset) % rb.size + k) := by
  refine ⟨offset + k,by rw [sound.length_contents]; omega,?_⟩
  rw [← Nat.add_assoc,← Nat.mod_add_mod (rb.tail + offset)]
  exact (Nat.mod_eq_of_lt (by omega)).symm

-- One turn of the recursion: it looks at `n` bytes and ends with the first that is
-- found, or goes on behind them.
theorem ringbufFindchr_turn (sound : rb.Sound) (c : Int) (more : offset < rb.ringbufBytesUsed) :
    ∃ n, 0 < n ∧ (rb.tail + offset) % rb.size + n ≤ rb.size ∧ offset + n ≤ rb.ringbufBytesUsed ∧
      (∀ k, ((rb.contents.drop offset).take n).findIdx? (fun byte => byte == UInt8.ofInt c) = some k → ∀ turns,
        rb.ringbufFindchr c (turns + 1) offset = some (offset + k,[((rb.tail + offset) % rb.size,n)])) ∧
      (((rb.contents.drop offset).take n).findIdx? (fun byte => byte == UInt8.ofInt c) = none → ∀ turns,
        rb.ringbufFindchr c (turns + 1) offset = (rb.ringbufFindchr c turns (offset + n)).map fun (i,looked) =>
          (i,((rb.tail + offset) % rb.size,n) :: looked)) := by
  have size : rb.ringbufBufferSize = rb.size := rfl
  have small := sound.small
  have less := sound.used_lt
  have ahead : (rb.tail + offset) % rb.size < rb.size := Nat.mod_lt _ (Nat.zero_lt_of_lt sound.tail)
  have bufend : rb.ringbufEnd > (rb.tail + offset) % rb.ringbufBufferSize := ahead
  have piece : chunk (rb.ringbufEnd - ((rb.tail + offset) % rb.ringbufBufferSize : Nat)) (rb.ringbufBytesUsed - offset) =
      min (rb.size - (rb.tail + offset) % rb.size) (rb.ringbufBytesUsed - offset) :=
    chunk_between bufend.le more.le small (by omega)
  generalize count : min (rb.size - (rb.tail + offset) % rb.size) (rb.ringbufBytesUsed - offset) = n at piece
  have fits : (rb.tail + offset) % rb.size + n ≤ rb.size := by omega
  have looked_at := sound.memchr c fits (by omega)
  refine ⟨n,by omega,fits,by omega,fun k here turns => ?_,fun none_ turns => ?_⟩
  · have found := (List.findIdx?_eq_some_iff_getElem.mp here).1
    have moved : (offset : Int) + ((((rb.tail + offset) % rb.size + k : Nat) : Int) - ((rb.tail + offset) % rb.size : Nat)) =
        (offset + k : Nat) := by omega
    rw [List.length_take] at found
    rw [ringbufFindchr,if_neg (Nat.not_le_of_lt more)]
    dsimp only
    rw [if_pos bufend,piece,size,looked_at,here]
    simp only [Option.map_some,Option.bind_eq_bind,Option.bind_some]
    rw [moved,sizeT_small (by omega)]
  · rw [ringbufFindchr,if_neg (Nat.not_le_of_lt more)]
    dsimp only
    rw [if_pos bufend,piece,size,looked_at,none_]
    rfl

theorem ringbufFindchr_searched (sound : rb.Sound) (c : Int) (near : rb.ringbufBytesUsed - offset ≤ left) :
    ∃ i looked, Ends (fun turns => rb.ringbufFindchr c turns offset) (i,looked) ∧
      Searched rb.contents (UInt8.ofInt c) offset i ∧ ∀ seen ∈ looked, ∀ k < seen.2, rb.Occupied (seen.1 + k) := by
  have length := sound.length_contents
  induction left generalizing offset with
  | zero =>
    refine ⟨rb.ringbufBytesUsed,[],.turn (fun turns => if_pos (by omega)) (.done _),?_,by simp⟩
    rw [← length]
    exact searched_end _ _ (by omega)
  | succ left ih =>
    by_cases past : offset ≥ rb.ringbufBytesUsed
    · exact ih (by omega)
    · obtain ⟨n,some_,fits,within,hit,miss⟩ := ringbufFindchr_turn sound c (Nat.lt_of_not_ge past)
      have seen : ∀ k < n, rb.Occupied ((rb.tail + offset) % rb.size + k) := fun k => sound.occupied fits within
      cases here : ((rb.contents.drop offset).take n).findIdx? fun byte => byte == UInt8.ofInt c with
      | some k =>
        exact ⟨offset + k,[((rb.tail + offset) % rb.size,n)],.turn (hit k here) (.done _),searched_found here,by simpa using seen⟩
      | none =>
        obtain ⟨i,looked,rest,later,others⟩ := @ih (offset + n) (by omega)
        exact ⟨i,((rb.tail + offset) % rb.size,n) :: looked,
          .turn (miss here) (rest.map fun (i,looked) => (i,((rb.tail + offset) % rb.size,n) :: looked)),
          searched_skip here later,List.forall_mem_cons.mpr ⟨seen,others⟩⟩

-- Wherever the contents begin and end, the search in the ring is the plain one, and
-- it looks at nothing but them.
theorem ringbufFindchr_plain (sound : rb.Sound) (c : UInt8) (offset : Nat) :
    ∃ i looked, Ends (fun turns => rb.ringbufFindchr c.toNat turns offset) (i,looked) ∧ Searched rb.contents c offset i ∧
      ∀ seen ∈ looked, ∀ k < seen.2, rb.Occupied (seen.1 + k) := by
  have byte : UInt8.ofInt c.toNat = c := by
    have small := c.toNat_lt
    apply UInt8.toNat_inj.mp
    rw [UInt8.ofInt,UInt8.toNat_ofNat']
    omega
  obtain ⟨i,looked,ends,searched,occupied⟩ := ringbufFindchr_searched sound c.toNat (Nat.le_refl (rb.ringbufBytesUsed - offset))
  rw [byte] at searched
  exact ⟨i,looked,ends,searched,occupied⟩

theorem four_bytes : 0 < [3,9,1,2].length ∧ [3,9,1,2].length < 2^31 := by decide

def wrapped : RingBuf := ⟨⟨[3,9,1,2],four_bytes.1,four_bytes.2⟩,1,2,4⟩

theorem wrapped_plain : ∃ i looked, Ends (fun turns => wrapped.ringbufFindchr 3 turns 1) (i,looked) ∧ Searched [1,2,3] 3 1 i ∧
    ∀ seen ∈ looked, ∀ k < seen.2, wrapped.Occupied (seen.1 + k) :=
  ringbufFindchr_plain ⟨rfl,by decide,by decide⟩ 3 1

end RingBuf
end NonosLinkLayer.Espconn
