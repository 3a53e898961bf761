import Mathlib.Data.Nat.ModEq
import NonosLinkLayer.Base.RingQueue

namespace NonosLinkLayer.Espconn
open RingQueue

-- size_t and int are both 32 bit wide.
def sizeT (x : Int) : Nat := (x % 2^32).toNat
def int (x : Int) : Int := x.bmod (2^32)

theorem sizeT_small {n : Nat} (small : n < 2^32) : sizeT n = n := by
  unfold sizeT
  omega

theorem int_small {n : Nat} (small : n < 2^31) : int n = n := by
  rw [int,Int.bmod_eq_of_le (by omega) (by omega)]

-- What the allocator gives: an object of at least one byte, none so large that
-- the distance of two pointers into it is no ptrdiff_t.
structure Block where
  bytes : List UInt8
  nonempty : 0 < bytes.length
  small : bytes.length < 2^31

namespace Block

def copy (block : Block) (p : Nat) (xs : List UInt8) : Option Block :=
  if fits : p + xs.length ≤ block.bytes.length then
    some ⟨overwrite block.bytes p xs,by rw [length_overwrite fits]; exact block.nonempty,
      by rw [length_overwrite fits]; exact block.small⟩
  else none

def read (block : Block) (p n : Nat) : Option (List UInt8) :=
  if p + n ≤ block.bytes.length then some ((block.bytes.drop p).take n) else none

theorem copy_fits (block : Block) {p : Nat} {xs : List UInt8} (fits : p + xs.length ≤ block.bytes.length) :
    ∃ next, block.copy p xs = some next ∧ next.bytes = overwrite block.bytes p xs :=
  ⟨_,dif_pos fits,rfl⟩

theorem read_fits (block : Block) {p n : Nat} (fits : p + n ≤ block.bytes.length) :
    block.read p n = some ((block.bytes.drop p).take n) := if_pos fits

end Block

structure RingBuf where
  buf : Block
  head : Nat
  tail : Nat
  size : Nat

namespace RingBuf

def ringbufReset (rb : RingBuf) : RingBuf := {rb with head := 0,tail := 0}

-- `header` tells whether the first of the two allocations succeeds.
def ringbufNew (osZalloc : Nat → Option Block) (header : Bool) (capacity : UInt32) : Option RingBuf :=
  if header then
    (osZalloc (capacity + 1).toNat).map fun buf => ringbufReset ⟨buf,0,0,(capacity + 1).toNat⟩
  else none

def ringbufBufferSize (rb : RingBuf) : Nat := rb.size
def ringbufCapacity (rb : RingBuf) : Nat := sizeT (rb.ringbufBufferSize - 1)
def ringbufEnd (rb : RingBuf) : Nat := rb.ringbufBufferSize

def ringbufBytesFree (rb : RingBuf) : Nat :=
  if rb.head ≥ rb.tail then sizeT (rb.ringbufCapacity - (rb.head - rb.tail))
  else sizeT (rb.tail - rb.head - 1)

def ringbufBytesUsed (rb : RingBuf) : Nat := sizeT (rb.ringbufCapacity - rb.ringbufBytesFree)
def ringbufIsFull (rb : RingBuf) : Bool := rb.ringbufBytesFree == 0

-- In this and what follows a failed assertion, an access outside the object
-- and a loop that does not end all give no result.
def ringbufNextp (rb : RingBuf) (p : Nat) : Option Nat :=
  if p < rb.ringbufEnd then some ((p + 1) % rb.ringbufBufferSize) else none

-- LWIP_MIN((int)(bufend - p), (int)(count - done))
def chunk (room wanted : Int) : Nat := sizeT (min (int room) (int wanted))

-- The loop of ringbuf_memset and ringbuf_memcpy_into, which differ in where
-- the bytes come from.
def writeLoop (source : Nat → Nat → List UInt8) (bufend count : Nat) : Nat → RingBuf → Nat → Option RingBuf
  | 0,_,_ => none
  | turns+1,dst,done =>
    if done = count then some dst
    else if bufend > dst.head then do
      let n := chunk (bufend - dst.head) (count - done)
      let buf ← dst.buf.copy dst.head (source done n)
      let head := dst.head + n
      writeLoop source bufend count turns {dst with buf,head := if head = bufend then 0 else head} (done + n)
    else none

def overrun (overflow : Bool) (dst : RingBuf) : Option RingBuf :=
  if overflow then do
    let tail ← dst.ringbufNextp dst.head
    let dst := {dst with tail}
    if dst.ringbufIsFull then some dst else none
  else some dst

def ringbufMemset (dst : RingBuf) (c : Int) (len : Nat) : Option (RingBuf × Nat) := do
  let bufend := dst.ringbufEnd
  let count := min len dst.ringbufBufferSize
  let overflow := decide (count > dst.ringbufBytesFree)
  let dst ← writeLoop (fun _ n => List.replicate n (UInt8.ofInt c)) bufend count (count + 1) dst 0
  let dst ← overrun overflow dst
  pure (dst,count)

def ringbufMemcpyInto (dst : RingBuf) (src : List UInt8) (count : Nat) : Option (RingBuf × Nat) := do
  let bufend := dst.ringbufEnd
  let overflow := decide (count > dst.ringbufBytesFree)
  let dst ← writeLoop (fun nread n => (src.drop nread).take n) bufend count (count + 1) dst 0
  let dst ← overrun overflow dst
  pure (dst,dst.head)

def fromLoop (bufend count : Nat) : Nat → RingBuf → List UInt8 → Nat → Option (RingBuf × List UInt8)
  | 0,_,_,_ => none
  | turns+1,src,dst,nwritten =>
    if nwritten = count then some (src,dst)
    else if bufend > src.tail then do
      let n := chunk (bufend - src.tail) (count - nwritten)
      let bytes ← src.buf.read src.tail n
      let tail := src.tail + n
      fromLoop bufend count turns {src with tail := if tail = bufend then 0 else tail} (dst ++ bytes) (nwritten + n)
    else none

-- The inner result is NULL, or what was copied out and the new tail.
def ringbufMemcpyFrom (src : RingBuf) (count : Nat) : Option (RingBuf × Option (List UInt8 × Nat)) :=
  let bytesUsed := src.ringbufBytesUsed
  if count > bytesUsed then some (src,none)
  else do
    let (src,dst) ← fromLoop src.ringbufEnd count (count + 1) src [] 0
    if count + src.ringbufBytesUsed = bytesUsed then some (src,some (dst,src.tail)) else none

def contents (rb : RingBuf) : List UInt8 :=
  if rb.tail ≤ rb.head then (rb.buf.bytes.take rb.head).drop rb.tail
  else rb.buf.bytes.drop rb.tail ++ rb.buf.bytes.take rb.head

structure Sound (rb : RingBuf) : Prop where
  size : rb.size = rb.buf.bytes.length
  head : rb.head < rb.size
  tail : rb.tail < rb.size

variable {rb dst mid next src : RingBuf} {count done n turns : Nat} {source : Nat → Nat → List UInt8} {xs ys q : List UInt8}

theorem chunk_small {room wanted : Nat} (one : room < 2^31) (two : wanted < 2^31) :
    chunk room wanted = min room wanted := by
  have same : min (room : Int) wanted = (min room wanted : Nat) := by omega
  rw [chunk,int_small one,int_small two,same]
  exact sizeT_small (by omega)

theorem chunk_between {p bufend done count : Nat} (inside : p ≤ bufend) (within : done ≤ count) (one : bufend < 2^31)
    (two : count < 2^31) : chunk (bufend - p) (count - done) = min (bufend - p) (count - done) := by
  rw [←Int.ofNat_sub inside,←Int.ofNat_sub within]
  exact chunk_small (Nat.lt_of_le_of_lt (Nat.sub_le _ _) one) (Nat.lt_of_le_of_lt (Nat.sub_le _ _) two)

namespace Sound

theorem small (sound : rb.Sound) : rb.size < 2^31 := by
  rw [sound.size]
  exact rb.buf.small

theorem capacity (sound : rb.Sound) : rb.ringbufCapacity + 1 = rb.size := by
  have small := sound.small
  have := sound.head
  unfold ringbufCapacity ringbufBufferSize sizeT
  omega

theorem free (sound : rb.Sound) :
    rb.ringbufBytesFree = if rb.head ≥ rb.tail then rb.ringbufCapacity - (rb.head - rb.tail) else rb.tail - rb.head - 1 := by
  have small := sound.small
  have capacity := sound.capacity
  have := sound.head
  have := sound.tail
  unfold ringbufBytesFree sizeT
  split <;> omega

theorem free_le (sound : rb.Sound) : rb.ringbufBytesFree ≤ rb.ringbufCapacity := by
  have capacity := sound.capacity
  have := sound.head
  have := sound.tail
  rw [sound.free]
  split <;> omega

theorem used (sound : rb.Sound) : rb.ringbufBytesUsed = rb.ringbufCapacity - rb.ringbufBytesFree := by
  have small := sound.small
  have capacity := sound.capacity
  have := sound.free_le
  unfold ringbufBytesUsed sizeT
  omega

theorem used_lt (sound : rb.Sound) : rb.ringbufBytesUsed < rb.size := by
  have := sound.capacity
  rw [sound.used]
  omega

theorem head_eq (sound : rb.Sound) : rb.head = (rb.tail + rb.ringbufBytesUsed) % rb.size := by
  have capacity := sound.capacity
  have := sound.head
  have := sound.tail
  rw [sound.used,sound.free]
  by_cases ahead : rb.head ≥ rb.tail
  · rw [if_pos ahead,Nat.mod_eq_of_lt (by omega)]
    omega
  · rw [if_neg ahead]
    have round : rb.tail + (rb.ringbufCapacity - (rb.tail - rb.head - 1)) = rb.head + rb.size := by omega
    rw [round,Nat.add_mod_right,Nat.mod_eq_of_lt sound.head]

theorem used_unique (sound : rb.Sound) (less : n < rb.size) (leads : rb.head = (rb.tail + n) % rb.size) :
    rb.ringbufBytesUsed = n := by
  have same : (rb.tail + rb.ringbufBytesUsed) % rb.size = (rb.tail + n) % rb.size := sound.head_eq.symm.trans leads
  have used := Nat.ModEq.add_left_cancel' rb.tail same
  rwa [Nat.ModEq,Nat.mod_eq_of_lt sound.used_lt,Nat.mod_eq_of_lt less] at used

theorem contents_circular (sound : rb.Sound) : rb.contents = circular rb.buf.bytes rb.tail rb.ringbufBytesUsed := by
  have capacity := sound.capacity
  have size := sound.size
  have := sound.head
  have := sound.tail
  rw [sound.used,sound.free,contents]
  by_cases ahead : rb.tail ≤ rb.head
  · rw [if_pos ahead,if_pos ahead,circular_straight (by omega),List.drop_take]
    congr 1
    omega
  · rw [if_neg ahead,if_neg ahead,circular,List.rotate_eq_drop_append_take (by omega)]
    rw [List.take_append,List.length_drop,List.take_take]
    congr 1
    · exact (List.take_of_length_le (by rw [List.length_drop]; omega)).symm
    · congr 1
      omega

theorem length_contents (sound : rb.Sound) : rb.contents.length = rb.ringbufBytesUsed := by
  rw [sound.contents_circular,length_circular]
  have := sound.used_lt
  have := sound.size
  omega

-- Seen from the place of the next byte, the contents are what was put in last.
theorem contents_newest (sound : rb.Sound) : rb.contents = (rb.buf.bytes.rotate rb.head).rtake rb.ringbufBytesUsed := by
  have := sound.used_lt
  have := sound.size
  rw [sound.contents_circular,circular_back (by omega)]
  congr 1
  rw [sound.head_eq,sound.size,List.rotate_mod]

end Sound

structure Written (dst next : RingBuf) (xs : List UInt8) : Prop where
  size : next.size = dst.size
  length : next.buf.bytes.length = dst.buf.bytes.length
  tail : next.tail = dst.tail
  head : next.head = (dst.head + xs.length) % dst.size
  record : next.buf.bytes.rotate next.head = push dst.size (dst.buf.bytes.rotate dst.head) xs

namespace Written

theorem sound (written : Written dst next xs) (sound : dst.Sound) : next.Sound := by
  have positive : 0 < dst.size := Nat.zero_lt_of_lt sound.head
  refine ⟨?_,?_,?_⟩
  · rw [written.size,written.length,sound.size]
  · rw [written.size,written.head]
    exact Nat.mod_lt _ positive
  · rw [written.size,written.tail]
    exact sound.tail

theorem nothing (sound : dst.Sound) : Written dst dst [] := by
  refine ⟨rfl,rfl,rfl,(Nat.mod_eq_of_lt sound.head).symm,?_⟩
  rw [push,List.append_nil,rtake_all (by rw [List.length_rotate,sound.size])]

theorem trans (one : Written dst mid xs) (two : Written mid next ys) : Written dst next (xs ++ ys) := by
  refine ⟨two.size.trans one.size,two.length.trans one.length,two.tail.trans one.tail,?_,?_⟩
  · rw [two.head,one.head,one.size,Nat.mod_add_mod,List.length_append,Nat.add_assoc]
  · rw [two.record,one.record,one.size,push_push]

end Written

theorem turned (fits : n ≤ rb.size) : (if n = rb.ringbufEnd then 0 else n) = n % rb.size := by
  unfold ringbufEnd ringbufBufferSize
  split
  · rename_i ends
    rw [ends,Nat.mod_self]
  · exact (Nat.mod_eq_of_lt (by omega)).symm

theorem chunk_written (sound : dst.Sound) (fits : dst.head + xs.length ≤ dst.size) :
    ∃ buf, dst.buf.copy dst.head xs = some buf ∧
      Written dst {dst with buf,head := if dst.head + xs.length = dst.ringbufEnd then 0 else dst.head + xs.length} xs := by
  have room : dst.head + xs.length ≤ dst.buf.bytes.length := by rwa [←sound.size]
  obtain ⟨buf,copied,bytes⟩ := dst.buf.copy_fits room
  have length : buf.bytes.length = dst.buf.bytes.length := by rw [bytes,length_overwrite room]
  refine ⟨buf,copied,rfl,length,rfl,turned fits,?_⟩
  dsimp only
  rw [turned fits,sound.size,←length,List.rotate_mod,length,bytes]
  exact rotate_overwrite room

theorem writeLoop_written (given : ∀ done n, done + n ≤ xs.length → source done n = (xs.drop done).take n) (sound : dst.Sound)
    (small : xs.length < 2^31) (within : done ≤ xs.length) (enough : xs.length - done < turns) :
    ∃ next, writeLoop source dst.ringbufEnd xs.length turns dst done = some next ∧ Written dst next (xs.drop done) := by
  induction turns generalizing dst done with
  | zero => omega
  | succ turns ih =>
    rw [writeLoop]
    by_cases finished : done = xs.length
    · rw [if_pos finished,finished,List.drop_length]
      exact ⟨dst,rfl,.nothing sound⟩
    · have inside : dst.ringbufEnd > dst.head := sound.head
      have whole : dst.ringbufEnd < 2^31 := sound.small
      have piece : chunk (dst.ringbufEnd - dst.head) (xs.length - done) = min (dst.ringbufEnd - dst.head) (xs.length - done) :=
        chunk_between inside.le within whole (by omega)
      rw [if_neg finished,if_pos inside,piece]
      dsimp only
      rw [given _ _ (by omega)]
      generalize size : min (dst.ringbufEnd - dst.head) (xs.length - done) = n
      have length : ((xs.drop done).take n).length = n := by rw [List.length_take,List.length_drop]; omega
      have fits : dst.head + ((xs.drop done).take n).length ≤ dst.size := by
        have same : dst.ringbufEnd = dst.size := rfl
        omega
      obtain ⟨buf,copied,written⟩ := chunk_written sound fits
      rw [copied]
      rw [length] at written
      obtain ⟨next,rest,behind⟩ := ih (written.sound sound) (by omega : done + n ≤ xs.length) (by omega)
      refine ⟨next,rest,?_⟩
      have all := written.trans behind
      rwa [←List.drop_drop,List.take_append_drop] at all

-- A write that outruns the tail takes the tail along, so that one slot stays
-- empty and all others are in use.
theorem overrun_contents (sound : dst.Sound) (written : Written dst mid xs) :
    ∃ next, overrun (decide (xs.length > dst.ringbufBytesFree)) mid = some next ∧ next.Sound ∧ next.size = dst.size ∧
      next.contents = push dst.ringbufCapacity dst.contents xs := by
  have after := written.sound sound
  have capacity := sound.capacity
  have used := sound.used
  have free := sound.free_le
  have less := sound.used_lt
  rw [sound.contents_newest]
  by_cases beyond : xs.length > dst.ringbufBytesFree
  · have positive : 0 < dst.size := Nat.zero_lt_of_lt sound.head
    have room : 0 < mid.size := by rwa [written.size]
    have stays : mid.head < mid.ringbufEnd := after.head
    let next := {mid with tail := (mid.head + 1) % mid.ringbufBufferSize}
    have whole : next.Sound := ⟨after.size,after.head,Nat.mod_lt _ room⟩
    have same : next.ringbufCapacity = dst.ringbufCapacity := congrArg (fun n : Nat => sizeT (n - 1)) written.size
    have all : next.ringbufBytesUsed = dst.ringbufCapacity := by
      refine whole.used_unique ?_ ?_
      · change dst.ringbufCapacity < mid.size
        rw [written.size]
        omega
      · change mid.head = ((mid.head + 1) % mid.size + dst.ringbufCapacity) % mid.size
        rw [Nat.mod_add_mod,written.size,Nat.add_assoc,Nat.add_comm 1,capacity,Nat.add_mod_right,←written.size]
        exact (Nat.mod_eq_of_lt after.head).symm
    have full : next.ringbufBytesFree = 0 := by
      have := whole.used
      have := whole.free_le
      omega
    refine ⟨next,?_,whole,written.size,?_⟩
    · unfold overrun ringbufNextp ringbufIsFull
      rw [decide_eq_true beyond,if_pos rfl,if_pos stays]
      dsimp only [Option.bind_eq_bind,Option.bind_some]
      exact if_pos (beq_iff_eq.mpr full)
    · have record : next.buf.bytes.rotate next.head = push dst.size (dst.buf.bytes.rotate dst.head) xs := written.record
      rw [whole.contents_newest,all,record,push,push,rtake_rtake _ (by omega),rtake_append_rtake _ _ (by omega)]
  · have more : mid.ringbufBytesUsed = dst.ringbufBytesUsed + xs.length := by
      refine after.used_unique ?_ ?_
      · rw [written.size]
        omega
      · rw [written.head,written.tail,written.size,sound.head_eq,Nat.mod_add_mod,Nat.add_assoc]
    have fits : ((dst.buf.bytes.rotate dst.head).rtake dst.ringbufBytesUsed).length ≤ dst.ringbufBytesUsed := by
      rw [length_rtake]
      exact Nat.min_le_left ..
    refine ⟨mid,?_,after,written.size,?_⟩
    · rw [overrun,decide_eq_false beyond]
      rfl
    · have room : ((dst.buf.bytes.rotate dst.head).rtake dst.ringbufBytesUsed).length + xs.length ≤ dst.ringbufCapacity := by omega
      have kept := push_all room
      rw [kept,after.contents_newest,more,written.record,push,rtake_rtake _ (by omega)]
      rw [rtake_append_of_ge _ (by omega),Nat.add_sub_cancel]

theorem write_contents (given : ∀ done n, done + n ≤ xs.length → source done n = (xs.drop done).take n) (sound : dst.Sound)
    (small : xs.length < 2^31) :
    ∃ next, (writeLoop source dst.ringbufEnd xs.length (xs.length + 1) dst 0).bind
        (overrun (decide (xs.length > dst.ringbufBytesFree))) = some next ∧ next.Sound ∧ next.size = dst.size ∧
      next.contents = push dst.ringbufCapacity dst.contents xs := by
  have enough : xs.length - 0 < xs.length + 1 := Nat.lt_succ_self _
  obtain ⟨mid,loop,written⟩ := writeLoop_written given sound small (Nat.zero_le _) enough
  rw [List.drop_zero] at written
  rw [loop]
  exact overrun_contents sound written

theorem ringbufMemcpyInto_contents (sound : dst.Sound) (small : xs.length < 2^31) :
    ∃ next, ringbufMemcpyInto dst xs xs.length = some (next,next.head) ∧ next.Sound ∧ next.size = dst.size ∧
      next.contents = push dst.ringbufCapacity dst.contents xs := by
  have given : ∀ done n, done + n ≤ xs.length → (fun nread n => (xs.drop nread).take n) done n = (xs.drop done).take n :=
    fun _ _ _ => rfl
  obtain ⟨next,wrote,after⟩ := write_contents given sound small
  refine ⟨next,?_,after⟩
  unfold ringbufMemcpyInto
  dsimp only [Option.bind_eq_bind]
  rw [←Option.bind_assoc,wrote]
  rfl

theorem ringbufMemset_contents (sound : dst.Sound) (c : Int) (small : n < 2^31) :
    ∃ next, ringbufMemset dst c n = some (next,min n dst.size) ∧ next.Sound ∧ next.size = dst.size ∧
      next.contents = push dst.ringbufCapacity dst.contents (List.replicate (min n dst.size) (UInt8.ofInt c)) := by
  have length : (List.replicate (min n dst.size) (UInt8.ofInt c)).length = min n dst.size := List.length_replicate
  have given : ∀ done k, done + k ≤ (List.replicate (min n dst.size) (UInt8.ofInt c)).length →
      (fun _ k => List.replicate k (UInt8.ofInt c)) done k = ((List.replicate (min n dst.size) (UInt8.ofInt c)).drop done).take k := by
    intro done k within
    rw [List.drop_replicate,List.take_replicate,Nat.min_eq_left (by omega)]
  obtain ⟨next,wrote,after⟩ := write_contents given sound (by omega)
  rw [length] at wrote
  refine ⟨next,?_,after⟩
  unfold ringbufMemset
  dsimp only [Option.bind_eq_bind,ringbufBufferSize]
  rw [←Option.bind_assoc,wrote]
  rfl

theorem fromLoop_read (xs : List UInt8) (sound : src.Sound) (small : count < 2^31) (within : done ≤ count) (most : count - done ≤ src.size)
    (enough : count - done < turns) :
    fromLoop src.ringbufEnd count turns src xs done =
      some ({src with tail := (src.tail + (count - done)) % src.size},xs ++ circular src.buf.bytes src.tail (count - done)) := by
  induction turns generalizing src xs done with
  | zero => omega
  | succ turns ih =>
    have whole : src.ringbufEnd < 2^31 := sound.small
    have inside : src.ringbufEnd > src.tail := sound.tail
    have same : src.ringbufEnd = src.size := rfl
    rw [fromLoop]
    by_cases finished : done = count
    · rw [if_pos finished,finished,Nat.sub_self,Nat.add_zero,Nat.mod_eq_of_lt sound.tail]
      simp [circular]
    · have piece : chunk (src.ringbufEnd - src.tail) (count - done) = min (src.ringbufEnd - src.tail) (count - done) :=
        chunk_between inside.le within (by omega) (by omega)
      rw [if_neg finished,if_pos inside,piece]
      dsimp only
      generalize size : min (src.ringbufEnd - src.tail) (count - done) = n
      have fits : src.tail + n ≤ src.size := by omega
      have straight : src.tail + n ≤ src.buf.bytes.length := by rwa [←sound.size]
      rw [src.buf.read_fits straight,turned fits]
      dsimp only [Option.bind_eq_bind,Option.bind_some]
      have moved : Sound {src with tail := (src.tail + n) % src.size} :=
        ⟨sound.size,sound.head,Nat.mod_lt _ (Nat.zero_lt_of_lt sound.tail)⟩
      have rest := @ih _ _ (xs ++ (src.buf.bytes.drop src.tail).take n) moved (by omega : done + n ≤ count) (by dsimp only; omega)
        (by omega)
      have all : n + (count - (done + n)) = count - done := by omega
      have onward : (circular src.buf.bytes src.tail (count - done)).drop n =
          circular src.buf.bytes (src.tail + n) (count - (done + n)) := by
        rw [drop_circular (by rw [←sound.size]; exact most)]
        congr 1
        omega
      refine rest.trans ?_
      dsimp only
      rw [Nat.mod_add_mod,Nat.add_assoc,all,List.append_assoc,←circular_straight straight,sound.size,circular_mod,←onward]
      rw [←take_circular (by omega : n ≤ count - done),List.take_append_drop]

theorem ringbufMemcpyFrom_refused (sound : src.Sound) (more : src.contents.length < count) :
    ringbufMemcpyFrom src count = some (src,none) := by
  rw [sound.length_contents] at more
  exact if_pos more

theorem ringbufMemcpyFrom_contents (sound : src.Sound) (there : count ≤ src.contents.length) :
    ∃ next, ringbufMemcpyFrom src count = some (next,some (src.contents.take count,next.tail)) ∧ next.Sound ∧
      next.size = src.size ∧ next.contents = src.contents.drop count := by
  rw [sound.length_contents] at there
  have small := sound.small
  have less := sound.used_lt
  have size := sound.size
  let next := {src with tail := (src.tail + count) % src.size}
  have after : next.Sound := ⟨sound.size,sound.head,Nat.mod_lt _ (Nat.zero_lt_of_lt sound.tail)⟩
  have used : next.ringbufBytesUsed = src.ringbufBytesUsed - count := by
    refine after.used_unique (by change _ < src.size; omega) ?_
    change src.head = ((src.tail + count) % src.size + (src.ringbufBytesUsed - count)) % src.size
    rw [Nat.mod_add_mod,Nat.add_assoc,Nat.add_sub_cancel' there]
    exact sound.head_eq
  refine ⟨next,?_,after,rfl,?_⟩
  · have loop := fromLoop_read [] sound (by omega : count < 2^31) (Nat.zero_le _) (by omega) (by omega : count - 0 < count + 1)
    have taken : src.contents.take count = circular src.buf.bytes src.tail count := by
      rw [sound.contents_circular,take_circular there]
    unfold ringbufMemcpyFrom
    rw [if_neg (by omega),loop,taken]
    dsimp only [Option.bind_eq_bind,Option.bind_some]
    rw [if_pos (by change count + next.ringbufBytesUsed = _; omega)]
    rfl
  · rw [after.contents_circular,used,sound.contents_circular,drop_circular (by omega)]
    change circular src.buf.bytes ((src.tail + count) % src.size) _ = _
    rw [size,circular_mod]

end RingBuf

inductive Call where
  | memcpyInto (src : List UInt8)
  | memset (c : Int) (len : Nat)
  | memcpyFrom (count : Nat)
  | reset

inductive Answer where
  | copied
  | filled (nwritten : Nat)
  | refused
  | delivered (bytes : List UInt8)
  | emptied

namespace Call

def count : Call → Nat
  | .memcpyInto src => src.length
  | .memset _ len => len
  | .memcpyFrom count => count
  | .reset => 0

def perform (rb : RingBuf) : Call → Option (RingBuf × Answer)
  | .memcpyInto src => (rb.ringbufMemcpyInto src src.length).map fun (rb,_) => (rb,.copied)
  | .memset c len => (rb.ringbufMemset c len).map fun (rb,nwritten) => (rb,.filled nwritten)
  | .memcpyFrom count => (rb.ringbufMemcpyFrom count).map fun (rb,taken) =>
    (rb,taken.elim .refused fun (bytes,_) => .delivered bytes)
  | .reset => some (rb.ringbufReset,.emptied)

def performAll (rb : RingBuf) : List Call → Option (RingBuf × List Answer)
  | [] => some (rb,[])
  | call :: later => do
    let (rb,answer) ← call.perform rb
    let (rb,answers) ← performAll rb later
    pure (rb,answer :: answers)

-- The same calls on a queue that keeps the newest `capacity` bytes.
def queue (capacity : Nat) (q : List UInt8) : Call → List UInt8 × Answer
  | .memcpyInto src => (push capacity q src,.copied)
  | .memset c len =>
    (push capacity q (List.replicate (min len (capacity + 1)) (UInt8.ofInt c)),.filled (min len (capacity + 1)))
  | .memcpyFrom count => if count > q.length then (q,.refused) else (q.drop count,.delivered (q.take count))
  | .reset => ([],.emptied)

def queueAll (capacity : Nat) (q : List UInt8) : List Call → List UInt8 × List Answer
  | [] => (q,[])
  | call :: later =>
    let (q,answer) := call.queue capacity q
    let (q,answers) := queueAll capacity q later
    (q,answer :: answers)

end Call

namespace RingBuf
variable {rb : RingBuf}

theorem reset_sound (sound : rb.Sound) : rb.ringbufReset.Sound ∧ rb.ringbufReset.contents = [] := by
  have positive : 0 < rb.size := Nat.zero_lt_of_lt sound.head
  refine ⟨⟨sound.size,positive,positive⟩,?_⟩
  simp [contents,ringbufReset]

theorem perform_queue (sound : rb.Sound) (call : Call) (small : call.count < 2^31) :
    ∃ next, call.perform rb = some (next,(call.queue rb.ringbufCapacity rb.contents).2) ∧ next.Sound ∧ next.size = rb.size ∧
      next.contents = (call.queue rb.ringbufCapacity rb.contents).1 := by
  cases call with
  | memcpyInto src =>
    obtain ⟨next,did,after⟩ := ringbufMemcpyInto_contents sound small
    exact ⟨next,congrArg (Option.map _) did,after⟩
  | memset c len =>
    obtain ⟨next,did,after⟩ := ringbufMemset_contents sound c small
    dsimp only [Call.queue]
    rw [sound.capacity]
    exact ⟨next,congrArg (Option.map _) did,after⟩
  | memcpyFrom count =>
    dsimp only [Call.queue]
    by_cases more : count > rb.contents.length
    · rw [if_pos more]
      exact ⟨rb,congrArg (Option.map _) (ringbufMemcpyFrom_refused sound more),sound,rfl,rfl⟩
    · rw [if_neg more]
      obtain ⟨next,did,after⟩ := ringbufMemcpyFrom_contents sound (Nat.le_of_not_lt more)
      exact ⟨next,congrArg (Option.map _) did,after⟩
  | reset =>
    obtain ⟨after,empty⟩ := reset_sound sound
    exact ⟨rb.ringbufReset,rfl,after,rfl,empty⟩

theorem performAll_queue (sound : rb.Sound) (calls : List Call) (small : ∀ call ∈ calls, call.count < 2^31) :
    ∃ next, Call.performAll rb calls = some (next,(Call.queueAll rb.ringbufCapacity rb.contents calls).2) ∧ next.Sound ∧
      next.size = rb.size ∧ next.contents = (Call.queueAll rb.ringbufCapacity rb.contents calls).1 := by
  induction calls generalizing rb with
  | nil => exact ⟨rb,rfl,sound,rfl,rfl⟩
  | cons call later ih =>
    obtain ⟨mid,one,between,size,contents⟩ := perform_queue sound call (small call (List.mem_cons_self ..))
    obtain ⟨next,rest,after,last,final⟩ := ih between fun call member => small call (List.mem_cons_of_mem _ member)
    have capacity : mid.ringbufCapacity = rb.ringbufCapacity := congrArg (fun n : Nat => sizeT (n - 1)) size
    rw [capacity,contents] at rest final
    refine ⟨next,?_,after,last.trans size,final⟩
    rw [Call.performAll,one]
    dsimp only [Option.bind_eq_bind,Option.bind_some]
    rw [rest]
    rfl

theorem ringbufNew_sound {osZalloc : Nat → Option Block} {header : Bool} {capacity : UInt32}
    (zeroed : ∀ n buf, osZalloc n = some buf → buf.bytes = List.replicate n 0)
    (made : ringbufNew osZalloc header capacity = some rb) :
    rb.Sound ∧ rb.contents = [] ∧ rb.ringbufCapacity = capacity.toNat := by
  unfold ringbufNew at made
  split at made
  · obtain ⟨buf,given,rfl⟩ := Option.map_eq_some_iff.mp made
    have length : buf.bytes.length = (capacity + 1).toNat := by rw [zeroed _ _ given,List.length_replicate]
    have positive := buf.nonempty
    have small := buf.small
    have room : (capacity + 1).toNat = capacity.toNat + 1 := by
      rw [UInt32.toNat_add] at length ⊢
      have := capacity.toNat_lt
      have : (1 : UInt32).toNat = 1 := rfl
      omega
    refine ⟨⟨length.symm,by change 0 < (capacity + 1).toNat; omega,by change 0 < (capacity + 1).toNat; omega⟩,?_,?_⟩
    · simp [contents,ringbufReset]
    · change sizeT ((capacity + 1).toNat - 1) = _
      rw [room]
      unfold sizeT
      omega
  · cases made

-- A new ring behaves as an empty queue of its capacity under whatever is done to it.
theorem ring_is_queue {osZalloc : Nat → Option Block} {header : Bool} {capacity : UInt32} {calls : List Call}
    (zeroed : ∀ n buf, osZalloc n = some buf → buf.bytes = List.replicate n 0)
    (made : ringbufNew osZalloc header capacity = some rb) (small : ∀ call ∈ calls, call.count < 2^31) :
    ∃ next, Call.performAll rb calls = some (next,(Call.queueAll capacity.toNat [] calls).2) ∧
      next.contents = (Call.queueAll capacity.toNat [] calls).1 ∧
      next.contents.length = next.ringbufBytesUsed ∧ next.ringbufBytesUsed = capacity.toNat - next.ringbufBytesFree ∧
      next.ringbufBytesFree ≤ capacity.toNat ∧ next.head ≤ capacity.toNat ∧ next.tail ≤ capacity.toNat := by
  obtain ⟨sound,empty,capacity⟩ := ringbufNew_sound zeroed made
  obtain ⟨next,did,after,size,contents⟩ := performAll_queue sound calls small
  have same : next.ringbufCapacity = rb.ringbufCapacity := congrArg (fun n : Nat => sizeT (n - 1)) size
  rw [empty,capacity] at did contents
  rw [capacity] at same
  have whole := after.capacity
  have head := after.head
  have tail := after.tail
  have free := after.free_le
  have used := after.used
  rw [same] at free used
  exact ⟨next,did,contents,after.length_contents,used,free,by omega,by omega⟩

def heapBlock (n : Nat) : Option Block :=
  if fits : 0 < n ∧ n < 2^31 then
    some ⟨List.replicate n 0,by rw [List.length_replicate]; exact fits.1,by rw [List.length_replicate]; exact fits.2⟩
  else none

theorem heapBlock_zeroed (n : Nat) (buf : Block) (given : heapBlock n = some buf) : buf.bytes = List.replicate n 0 := by
  unfold heapBlock at given
  split at given
  · cases given
    rfl
  · cases given

theorem ring_is_queue_three : ∃ rb next, ringbufNew heapBlock true 3 = some rb ∧
    Call.performAll rb [.memcpyInto [1,2,3,4,5],.memcpyFrom 1,.memset 7 9,.memcpyFrom 4] =
      some (next,[.copied,.delivered [3],.filled 4,.refused]) ∧ next.contents = [7,7,7] := by
  have made : ringbufNew heapBlock true 3 = some ⟨⟨[0,0,0,0],by decide,by decide⟩,0,0,4⟩ := rfl
  have small : ∀ call ∈ [Call.memcpyInto [1,2,3,4,5],.memcpyFrom 1,.memset 7 9,.memcpyFrom 4], call.count < 2^31 := by
    simp [Call.count]
  obtain ⟨next,did,contents,_⟩ := ring_is_queue heapBlock_zeroed made small
  exact ⟨_,next,rfl,did,contents⟩

end RingBuf
end NonosLinkLayer.Espconn
