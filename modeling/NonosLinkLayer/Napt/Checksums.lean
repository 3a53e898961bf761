import NonosLinkLayer.Napt.Translate
import NonosLinkLayer.Base.OnesComplement

namespace NonosLinkLayer.Napt
open ByteMemory OnesComplement

-- Checksums count in 16-bit words as they are on the wire, the high byte first.
def pairWord (x : UInt8 × UInt8) : Int := x.1.toNat * 256 + x.2.toNat
def word16 (p : Packet) (pos : Nat) : Int := pairWord (p pos,p (pos+1))

def words (p : Packet) : Nat → Nat → List Int
  | _,0 => []
  | pos,1 => [pairWord (p pos,0)]
  | pos,len+2 => word16 p pos :: words p (pos+2) len

def portWords (port : UInt16) : List Int := (pairs (bytes16 port)).map pairWord
def addrWords (addr : UInt32) : List Int := (pairs (bytes32 addr)).map pairWord

-- The checksum of the IP header, and the one of TCP or UDP over the pseudo
-- header and `len` bytes behind the IP header, as a receiver verifies them.
def IpSum (p : Packet) : Prop := addAll 0xffff 0 (words p 0 (iphHl p * 4)) = 0xffff

def pseudoHeader (p : Packet) (len : Nat) : List Int := words p 12 8 ++ [((iphProto p).toNat : Int),(len : Int)]

def TransportSum (p : Packet) (len : Nat) : Prop :=
  addAll 0xffff 0 (pseudoHeader p len ++ words p (transport p) len) = 0xffff

instance (p : Packet) : Decidable (IpSum p) := inferInstanceAs (Decidable (_ = _))
instance (p : Packet) (len : Nat) : Decidable (TransportSum p len) := inferInstanceAs (Decidable (_ = _))

section Words
variable {p q : Packet} {pos len : Nat}

theorem pairWord_digit (x : UInt8 × UInt8) : Digit 0xffff (pairWord x) := by
  have high := x.1.toNat_lt
  have low := x.2.toNat_lt
  unfold pairWord
  exact ⟨by omega,by omega⟩

theorem word16_digit (p : Packet) (pos : Nat) : Digit 0xffff (word16 p pos) := pairWord_digit _

theorem map_digit (l : List (UInt8 × UInt8)) : ∀ w ∈ l.map pairWord, Digit 0xffff w := by
  intro w member
  obtain ⟨x,_,same⟩ := List.mem_map.mp member
  rw [←same]
  exact pairWord_digit x

theorem words_digit (p : Packet) (pos len : Nat) : ∀ w ∈ words p pos len, Digit 0xffff w := by
  fun_induction words p pos len with
  | case1 => simp
  | case2 pos => simpa using pairWord_digit (p pos,0)
  | case3 pos len ih => exact List.forall_mem_cons.mpr ⟨word16_digit p pos,ih⟩

theorem words_append (p : Packet) (pos half len : Nat) :
    words p pos (2 * half + len) = words p pos (2 * half) ++ words p (pos + 2 * half) len := by
  induction half generalizing pos with
  | zero => simp [words]
  | succ half ih =>
    have more : 2 * (half+1) + len = 2 * half + len + 2 := by omega
    have even : 2 * (half+1) = 2 * half + 2 := by omega
    have ahead : pos + (2 * half + 2) = pos + 2 + 2 * half := by omega
    rw [more,even,words,words,ih,List.cons_append,ahead]

theorem words_congr (same : ∀ i, pos ≤ i → i < pos + len → p i = q i) : words p pos len = words q pos len := by
  fun_induction words p pos len with
  | case1 => rfl
  | case2 pos => rw [words,same pos (by omega) (by omega)]
  | case3 pos len ih =>
    rw [words,word16,word16,same pos (by omega) (by omega),same (pos+1) (by omega) (by omega)]
    rw [ih fun i above below => same i (by omega) (by omega)]

theorem word16_congr (zero : p pos = q pos) (one : p (pos+1) = q (pos+1)) : word16 p pos = word16 q pos := by
  unfold word16
  rw [zero,one]

theorem word16_write (p : Packet) (pos : Nat) (high low : UInt8) :
    word16 (write p pos [high,low]) pos = pairWord (high,low) := by
  simp [word16,write]

theorem portWords_read16 (p : Packet) (pos : Nat) : portWords (read16 p pos) = [word16 p pos] := by
  rw [portWords,bytes16_read16]
  rfl

theorem addrWords_read32 (p : Packet) (pos : Nat) : addrWords (read32 p pos) = [word16 p pos,word16 p (pos+2)] := by
  rw [addrWords,bytes32_read32]
  rfl

end Words

section Adjust
variable {p : Packet} {dest : Bool} {port : UInt16} {addr : UInt32} {chksum hdr field len : Nat}

theorem takeOut_eq (x : Int) (l : List (UInt8 × UInt8)) : takeOut x l = subAll 0xffff x (l.map pairWord) := by
  induction l generalizing x with
  | nil => rfl
  | cons head rest ih =>
    rw [takeOut,ih]
    rfl

theorem putIn_eq (x : Int) (l : List (UInt8 × UInt8)) : putIn x l = addAll 0xffff x (l.map pairWord) := by
  induction l generalizing x with
  | nil => rfl
  | cons head rest ih =>
    rw [putIn,ih]
    rfl

theorem checksumadjust_word (p : Packet) (chksum : Nat) (optr nptr : List (UInt8 × UInt8)) :
    word16 (checksumadjust p chksum optr nptr) chksum =
      adjust 0xffff (word16 p chksum) (optr.map pairWord) (nptr.map pairWord) := by
  have digit := ((word16_digit p chksum).adjust (map_digit optr) (map_digit nptr)).1
  unfold checksumadjust
  dsimp only
  rw [takeOut_eq,putIn_eq,word16_write]
  unfold adjust word16 pairWord at digit ⊢
  dsimp only at digit ⊢
  generalize addAll 65535 _ _ = x at digit ⊢
  obtain ⟨low,high⟩ := digit
  simp
  omega

def oldWords (p : Packet) (dest : Bool) (port : UInt16) : List Int :=
  let hdr := transport p
  let field := if dest then 16 else 12
  (if port ≠ (if dest then portDest p else portSrc p) then [word16 p (if dest then hdr + 2 else hdr)] else []) ++
    [word16 p field,word16 p (field + 2)]

def newWords (p : Packet) (dest : Bool) (port : UInt16) (addr : UInt32) : List Int :=
  (if port ≠ (if dest then portDest p else portSrc p) then portWords port else []) ++ addrWords addr

theorem oldWords_digit (p : Packet) (dest : Bool) (port : UInt16) : ∀ w ∈ oldWords p dest port, Digit 0xffff w := by
  unfold oldWords
  dsimp only
  intro w member
  rcases List.mem_append.mp member with inPort | inAddr
  · by_cases other : port ≠ if dest then portDest p else portSrc p
    · rw [if_pos other] at inPort
      cases List.mem_singleton.mp inPort
      exact word16_digit ..
    · rw [if_neg other] at inPort
      cases inPort
  · simp only [List.mem_cons,List.not_mem_nil,or_false] at inAddr
    rcases inAddr with same | same <;> rw [same] <;> exact word16_digit ..

theorem newWords_digit (p : Packet) (dest : Bool) (port : UInt16) (addr : UInt32) :
    ∀ w ∈ newWords p dest port addr, Digit 0xffff w := by
  intro w member
  rcases List.mem_append.mp member with inPort | inAddr
  · by_cases other : port ≠ if dest then portDest p else portSrc p
    · rw [if_pos other] at inPort
      exact map_digit _ w inPort
    · rw [if_neg other] at inPort
      cases inPort
  · exact map_digit _ w inAddr

theorem modifyPort_sum (far : 4 ≤ chksum) : word16 (modifyPort chksum p hdr dest port) (hdr + chksum) =
    adjust 0xffff (word16 p (hdr + chksum)) [word16 p (if dest then hdr + 2 else hdr)] (portWords port) := by
  have outside : ∀ i, i = hdr + chksum ∨ i = hdr + chksum + 1 →
      (if dest then hdr + 2 else hdr) + (bytes16 port).length ≤ i := by
    intro i here
    simp only [bytes16,List.length_cons,List.length_nil]
    split_ifs <;> omega
  unfold modifyPort
  rw [word16_congr (write_apart (.inr (outside _ (.inl rfl)))) (write_apart (.inr (outside _ (.inr rfl)))),
    checksumadjust_word]
  rfl

theorem modifyAddrIn_sum : word16 (modifyAddrIn chksum p hdr field addr) (hdr + chksum) =
    adjust 0xffff (word16 p (hdr + chksum)) [word16 p field,word16 p (field + 2)] (addrWords addr) := by
  unfold modifyAddrIn
  rw [checksumadjust_word]
  rfl

theorem ipNaptModifyAddr_sum (behind : 12 ≤ field) : word16 (ipNaptModifyAddr p field addr) 10 =
    adjust 0xffff (word16 p 10) [word16 p field,word16 p (field + 2)] (addrWords addr) := by
  unfold ipNaptModifyAddr
  rw [word16_congr (write_apart (.inl (by omega))) (write_apart (.inl (by omega))),checksumadjust_word]
  rfl

theorem rewrite_sum (whole : 20 ≤ transport p) (far : 4 ≤ chksum) :
    word16 (rewrite chksum p dest port addr) (transport p + chksum) =
      adjust 0xffff (word16 p (transport p + chksum)) (oldWords p dest port) (newWords p dest port addr) := by
  have inner : (if dest then 16 else 12) + 4 ≤ 20 := by split_ifs <;> decide
  have later : ∀ q : Packet, word16 (ipNaptModifyAddr (modifyAddrIn chksum q (transport p) (if dest then 16 else 12) addr)
      (if dest then 16 else 12) addr) (transport p + chksum) =
      word16 (modifyAddrIn chksum q (transport p) (if dest then 16 else 12) addr) (transport p + chksum) := by
    intro q
    exact word16_congr (ipNaptModifyAddr_frame (by omega) (by omega)) (ipNaptModifyAddr_frame (by omega) (by omega))
  unfold rewrite oldWords newWords
  dsimp only
  rw [later,modifyAddrIn_sum]
  by_cases other : port ≠ if dest then portDest p else portSrc p
  · have before : ∀ i < 20, modifyPort chksum p (transport p) dest port i = p i := fun i small =>
      modifyPort_frame (by omega) (by split_ifs <;> omega)
    have word : ∀ pos, pos + 2 ≤ 20 → word16 (modifyPort chksum p (transport p) dest port) pos = word16 p pos :=
      fun pos small => word16_congr (before pos (by omega)) (before (pos+1) (by omega))
    rw [if_pos other,if_pos other,if_pos other,modifyPort_sum far,word _ (by omega),word _ (by omega)]
    refine adjust_append (word16_digit ..) ?_ (map_digit _) ?_ (map_digit _)
    · simpa using word16_digit p _
    · simpa using ⟨word16_digit p _,word16_digit p _⟩
  · rw [if_neg other,if_neg other,if_neg other]
    rfl

theorem rewrite_ipSum (whole : 20 ≤ transport p) : word16 (rewrite chksum p dest port addr) 10 =
    adjust 0xffff (word16 p 10) [word16 p (if dest then 16 else 12),word16 p ((if dest then 16 else 12) + 2)]
      (addrWords addr) := by
  have before : ∀ i < 20, ∀ q : Packet, modifyAddrIn chksum q (transport p) (if dest then 16 else 12) addr i = q i :=
    fun i small q => modifyAddrIn_frame (by omega)
  have inner : (if dest then 16 else 12) + 4 ≤ 20 ∧ 12 ≤ if dest then 16 else 12 := by split_ifs <;> decide
  have same : ∀ i < 20, (if port ≠ (if dest then portDest p else portSrc p) then
      modifyPort chksum p (transport p) dest port else p) i = p i := by
    intro i small
    by_cases other : port ≠ if dest then portDest p else portSrc p
    · rw [if_pos other]
      exact modifyPort_frame (by omega) (by split_ifs <;> omega)
    · rw [if_neg other]
  have word : ∀ pos, pos + 2 ≤ 20 → word16 (modifyAddrIn chksum (if port ≠ (if dest then portDest p else portSrc p) then
      modifyPort chksum p (transport p) dest port else p) (transport p) (if dest then 16 else 12) addr) pos =
      word16 p pos := by
    intro pos small
    exact word16_congr ((before pos (by omega) _).trans (same pos (by omega)))
      ((before (pos+1) (by omega) _).trans (same (pos+1) (by omega)))
  unfold rewrite
  dsimp only
  rw [ipNaptModifyAddr_sum inner.2,word 10 (by omega),word _ (by omega),word _ (by omega)]

end Adjust

section Sums
variable {p : Packet} {dest : Bool} {port : UInt16} {addr : UInt32} {chksum half rest len : Nat}

theorem header_split (p : Packet) (rest : Nat) : words p 0 (20 + rest) =
    words p 0 10 ++ word16 p 10 :: ([word16 p 12,word16 p 14,word16 p 16,word16 p 18] ++ words p 20 rest) := by
  have size : 20 + rest = 2 * 5 + (2 * 5 + rest) := by omega
  rw [size,words_append,words_append]
  rfl

theorem segment_split (p : Packet) (pos half rest : Nat) : words p pos (2 * half + 6 + rest) =
    word16 p pos :: word16 p (pos+2) :: (words p (pos+4) (2 * half) ++
      word16 p (pos + (2 * half + 4)) :: words p (pos + (2 * half + 6)) rest) := by
  have size : 2 * half + 6 + rest = 2 * half + (rest + 2) + 2 + 2 := by omega
  have sum : pos + 2 + 2 + 2 * half = pos + (2 * half + 4) := by omega
  have behind : pos + (2 * half + 4) + 2 = pos + (2 * half + 6) := by omega
  rw [size,words,words,words_append,words,sum,behind]

theorem rewrite_addrWords (chksum : Nat) (p : Packet) (dest : Bool) (port : UInt16) (addr : UInt32) :
    [word16 (rewrite chksum p dest port addr) (if dest then 16 else 12),
      word16 (rewrite chksum p dest port addr) ((if dest then 16 else 12) + 2)] = addrWords addr := by
  rw [←addrWords_read32,rewrite_address]

theorem rewrite_portWords (whole : 20 ≤ transport p) (far : 4 ≤ chksum) (dest : Bool) (port : UInt16) (addr : UInt32) :
    [word16 (rewrite chksum p dest port addr) (if dest then transport p + 2 else transport p)] = portWords port := by
  rw [←portWords_read16,rewrite_port whole far]

theorem rewrite_otherWords (whole : 20 ≤ transport p) (chksum : Nat) (dest : Bool) (port : UInt16) (addr : UInt32) :
    word16 (rewrite chksum p dest port addr) (if dest then 12 else 16) = word16 p (if dest then 12 else 16) ∧
      word16 (rewrite chksum p dest port addr) ((if dest then 12 else 16) + 2) = word16 p ((if dest then 12 else 16) + 2) := by
  have other : ∀ k < 4, rewrite chksum p dest port addr ((if dest then 12 else 16) + k) = p ((if dest then 12 else 16) + k) := by
    intro k small
    exact rewrite_frame (by split_ifs <;> omega) (by split_ifs <;> omega) (by split_ifs <;> omega) (by split_ifs <;> omega)
  exact ⟨word16_congr (other 0 (by omega)) (other 1 (by omega)),word16_congr (other 2 (by omega)) (other 3 (by omega))⟩

-- The header of a rewritten packet sums up to the same, and so does its segment.
theorem rewrite_ipTotal (p : Packet) (whole : 20 ≤ transport p) (chksum : Nat) (dest : Bool) (port : UInt16) (addr : UInt32) :
    (words (rewrite chksum p dest port addr) 0 (transport p)).sum ≡ (words p 0 (transport p)).sum [ZMOD 0xffff] := by
  obtain ⟨rest,size⟩ := Nat.exists_eq_add_of_le whole
  have frame : ∀ i, i < 10 ∨ 20 ≤ i ∧ i < transport p → rewrite chksum p dest port addr i = p i := by
    intro i outside
    exact rewrite_frame (by omega) (by split_ifs <;> omega) (by omega) (by split_ifs <;> omega)
  have front : words (rewrite chksum p dest port addr) 0 10 = words p 0 10 :=
    words_congr fun i _ small => frame i (by omega)
  have back : words (rewrite chksum p dest port addr) 20 rest = words p 20 rest :=
    words_congr fun i above below => frame i (by omega)
  have sum : word16 (rewrite chksum p dest port addr) 10 = _ := rewrite_ipSum whole
  have old : ∀ w ∈ [word16 p (if dest then 16 else 12),word16 p ((if dest then 16 else 12) + 2)], Digit 0xffff w := by
    simp [word16_digit]
  have new : ∀ w ∈ addrWords addr, Digit 0xffff w := map_digit _
  have counts := ((word16_digit p 10).adjust old new).2.1
  rw [←sum,←rewrite_addrWords chksum p dest port] at counts
  obtain ⟨one,two⟩ := rewrite_otherWords whole chksum dest port addr
  rw [size,header_split,header_split,front,back]
  unfold Int.ModEq at counts ⊢
  cases dest <;> simp at counts one two ⊢ <;> omega

theorem rewrite_pseudoSum (whole : 20 ≤ transport p) (chksum len : Nat) (dest : Bool) (port : UInt16) (addr : UInt32) :
    (pseudoHeader (rewrite chksum p dest port addr) len).sum + word16 p (if dest then 16 else 12) +
      word16 p ((if dest then 16 else 12) + 2) = (pseudoHeader p len).sum + (addrWords addr).sum := by
  obtain ⟨one,two⟩ := rewrite_otherWords whole chksum dest port addr
  unfold pseudoHeader
  rw [rewrite_proto whole,←rewrite_addrWords chksum p dest port]
  cases dest <;> simp [words] at one two ⊢ <;> omega

theorem rewrite_total (p : Packet) (whole : 20 ≤ transport p) (half rest len : Nat) (dest : Bool) (port : UInt16)
    (addr : UInt32) :
    (pseudoHeader (rewrite (2 * half + 4) p dest port addr) len ++
      words (rewrite (2 * half + 4) p dest port addr) (transport p) (2 * half + 6 + rest)).sum ≡
    (pseudoHeader p len ++ words p (transport p) (2 * half + 6 + rest)).sum [ZMOD 0xffff] := by
  have pseudo := rewrite_pseudoSum whole (2 * half + 4) len dest port addr
  have frame : ∀ i, transport p + 4 ≤ i → (i < transport p + (2 * half + 4) ∨ transport p + (2 * half + 6) ≤ i) →
      rewrite (2 * half + 4) p dest port addr i = p i := by
    intro i above outside
    exact rewrite_frame (by omega) (by split_ifs <;> omega) (by omega) (by split_ifs <;> omega)
  have front : words (rewrite (2 * half + 4) p dest port addr) (transport p + 4) (2 * half) =
      words p (transport p + 4) (2 * half) := words_congr fun i above below => frame i above (by omega)
  have back : words (rewrite (2 * half + 4) p dest port addr) (transport p + (2 * half + 6)) rest =
      words p (transport p + (2 * half + 6)) rest := words_congr fun i above _ => frame i (by omega) (by omega)
  have sum : word16 (rewrite (2 * half + 4) p dest port addr) (transport p + (2 * half + 4)) = _ :=
    rewrite_sum whole (by omega)
  have counts := ((word16_digit p (transport p + (2 * half + 4))).adjust (oldWords_digit p dest port)
    (newWords_digit p dest port addr)).2.1
  rw [←sum] at counts
  -- with the port left as it is, its word counts neither before nor after
  have ports : (oldWords p dest port).sum + (portWords port).sum =
      word16 p (if dest then transport p + 2 else transport p) + word16 p (if dest then 16 else 12) +
        word16 p ((if dest then 16 else 12) + 2) + ((newWords p dest port addr).sum - (addrWords addr).sum) := by
    unfold oldWords newWords
    dsimp only
    by_cases differs : port ≠ if dest then portDest p else portSrc p
    · rw [if_pos differs,if_pos differs]
      simp only [List.sum_append,List.sum_cons,List.sum_nil]
      omega
    · have same : portWords port = [word16 p (if dest then transport p + 2 else transport p)] := by
        rw [not_not.mp differs,←portWords_read16]
        cases dest <;> rfl
      rw [if_neg differs,if_neg differs,same]
      simp only [List.sum_append,List.sum_cons,List.sum_nil]
      omega
  rw [←rewrite_portWords (show 20 ≤ transport p from whole) (show 4 ≤ 2 * half + 4 by omega) dest port addr] at ports
  have other : ∀ k < 2, rewrite (2 * half + 4) p dest port addr ((if dest then transport p else transport p + 2) + k) =
      p ((if dest then transport p else transport p + 2) + k) := by
    intro k small
    exact rewrite_frame (by split_ifs <;> omega) (by split_ifs <;> omega) (by split_ifs <;> omega) (by split_ifs <;> omega)
  have untouched := word16_congr (other 0 (by omega)) (other 1 (by omega))
  rw [segment_split,segment_split,front,back,List.sum_append,List.sum_append]
  unfold Int.ModEq at counts ⊢
  cases dest <;> simp at counts pseudo ports untouched ⊢ <;> omega

theorem ipSum_total (whole : 5 ≤ iphHl p) : IpSum p ↔ (words p 0 (transport p)).sum ≡ 0 [ZMOD 0xffff] := by
  unfold IpSum transport
  rw [addAll_full (words_digit _ _ _) (by decide),and_iff_left]
  have first : p 0 ≠ 0 := by
    intro zero
    unfold iphHl at whole
    rw [zero] at whole
    simp at whole
  have some := UInt8.toNat_inj.not.mpr first
  obtain ⟨rest,size⟩ := Nat.exists_eq_add_of_le (show 2 ≤ iphHl p * 4 by omega)
  refine ⟨word16 p 0,?_,?_⟩
  · rw [size,Nat.add_comm,words]
    exact List.mem_cons_self
  · unfold word16 pairWord
    simp only [UInt8.toNat_zero] at some
    dsimp only
    omega

theorem transportSum_total (proto : iphProto p ≠ 0) (short : len ≤ 0xffff) :
    TransportSum p len ↔ (pseudoHeader p len ++ words p (transport p) len).sum ≡ 0 [ZMOD 0xffff] := by
  have some := UInt8.toNat_inj.not.mpr proto
  have small := (iphProto p).toNat_lt
  unfold TransportSum
  rw [addAll_full ?_ (by decide),and_iff_left]
  · refine ⟨(iphProto p).toNat,by simp [pseudoHeader],?_⟩
    simp only [UInt8.toNat_zero] at some
    omega
  · simp only [pseudoHeader,List.forall_mem_append,List.forall_mem_cons]
    exact ⟨⟨words_digit _ _ _,⟨by omega,by omega⟩,⟨by omega,by omega⟩,by simp⟩,words_digit _ _ _⟩

theorem rewrite_keeps_ipSum (whole : 5 ≤ iphHl p) : IpSum (rewrite chksum p dest port addr) ↔ IpSum p := by
  have far : 20 ≤ transport p := by
    unfold transport
    omega
  have same : transport (rewrite chksum p dest port addr) = transport p := rewrite_transport far
  have total := rewrite_ipTotal p far chksum dest port addr
  have whole' : 5 ≤ iphHl (rewrite chksum p dest port addr) := by
    unfold transport at same
    omega
  rw [ipSum_total whole,ipSum_total whole',same]
  exact ⟨total.symm.trans,total.trans⟩

theorem rewrite_keeps_sum (half : Nat) (whole : 20 ≤ transport p) (proto : iphProto p ≠ 0) (short : len ≤ 0xffff)
    (place : chksum = 2 * half + 4) (long : chksum + 2 ≤ len) :
    TransportSum (rewrite chksum p dest port addr) len ↔ TransportSum p len := by
  obtain ⟨rest,size⟩ := Nat.exists_eq_add_of_le (show 2 * half + 6 ≤ len by omega)
  have same : transport (rewrite chksum p dest port addr) = transport p := rewrite_transport whole
  have proto' : iphProto (rewrite chksum p dest port addr) = iphProto p := rewrite_proto whole
  have total := rewrite_total p whole half rest len dest port addr
  rw [←place,←size] at total
  rw [transportSum_total proto short,transportSum_total (by rw [proto']; exact proto) short,same]
  exact ⟨total.symm.trans,total.trans⟩

end Sums

end NonosLinkLayer.Napt
