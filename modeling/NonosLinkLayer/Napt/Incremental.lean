import NonosLinkLayer.Napt.Checksums
import NonosLinkLayer.Base.Turns

namespace NonosLinkLayer.Napt
open OnesComplement Turns

def wordsOf : List UInt8 → List Int
  | [] => []
  | [high] => [pairWord (high,0)]
  | high :: low :: rest => pairWord (high,low) :: wordsOf rest

-- A loop of checksumadjust with the length it is given. Beside the result stands
-- what x was after each turn.
def wordLoop (turn : Int → Int → Int) : Nat → Int → List UInt8 → Int → Option (Int × List Int)
  | 0,_,_,_ => none
  | turns+1,x,ptr,len =>
    if len = 0 then some (x,[])
    else do
      let high ← ptr[0]?
      let low ← ptr[1]?
      let x := turn x (high.toNat * 256 + low.toNat)
      (wordLoop turn turns x (ptr.drop 2) (len - 2)).map fun (last,xs) => (last,x :: xs)

def optrLoop : Nat → Int → List UInt8 → Int → Option (Int × List Int) := wordLoop fun x old =>
  let x := x - old % 0x10000
  if x ≤ 0 then (x - 1) % 0x10000 else x

def nptrLoop : Nat → Int → List UInt8 → Int → Option (Int × List Int) := wordLoop fun x new =>
  let x := x + new % 0x10000
  if x / 0x10000 % 2 = 1 then (x + 1) % 0x10000 else x

-- The complement of x as an s32_t is -x-1.
def checksumadjustLoops (turns : Nat) (chksum : UInt8 × UInt8) (optr : List UInt8) (olen : Int) (nptr : List UInt8)
    (nlen : Int) : Option ((UInt8 × UInt8) × List Int) := do
  let x : Int := chksum.1.toNat * 256 + chksum.2.toNat
  let x := (-x - 1) % 0x10000
  let (x,outs) ← optrLoop turns x optr olen
  let (x,ins) ← nptrLoop turns x nptr nlen
  let x := (-x - 1) % 0x10000
  pure ((UInt8.ofInt (x / 256),UInt8.ofInt (x % 256)),outs ++ ins)

inductive Part where
  | kept (bytes : List UInt8)
  | field (old new : List UInt8)
  | checksum
  deriving DecidableEq, Repr

namespace Part

def before (chksum : UInt8 × UInt8) : Part → List UInt8
  | .kept bytes => bytes
  | .field old _ => old
  | .checksum => [chksum.1,chksum.2]

def after (chksum : UInt8 × UInt8) : Part → List UInt8
  | .kept bytes => bytes
  | .field _ new => new
  | .checksum => [chksum.1,chksum.2]

def old : Part → List UInt8
  | .field old _ => old
  | _ => []

def new : Part → List UInt8
  | .field _ new => new
  | _ => []

def Even : Part → Prop
  | .kept bytes => bytes.length % 2 = 0
  | .field old new => old.length % 2 = 0 ∧ new.length % 2 = 0
  | .checksum => True

def data : Part → List UInt8
  | .kept bytes => bytes
  | .field _ new => new
  | .checksum => []

end Part

structure Replaces (parts : List Part) (olds news : List UInt8) : Prop where
  even : ∀ part ∈ parts, part.Even
  checksum : parts.count .checksum = 1
  old : parts.flatMap Part.old = olds
  new : parts.flatMap Part.new = news

def Verifies (bytes : List UInt8) : Prop := addAll 0xffff 0 (wordsOf bytes) = 0xffff

instance (bytes : List UInt8) : Decidable (Verifies bytes) := inferInstanceAs (Decidable (_ = _))

def Keeps (chksum stored : UInt8 × UInt8) (olds news : List UInt8) : Prop :=
  ∀ (parts : List Part) (rest : List UInt8), Replaces parts olds news → (∃ byte ∈ parts.flatMap Part.data ++ rest, byte ≠ 0) →
    Verifies (parts.flatMap (Part.before chksum) ++ rest) → Verifies (parts.flatMap (Part.after stored) ++ rest)

section Bytes
variable {l rest olds news : List UInt8} {x : Int} {chksum stored : UInt8 × UInt8} {parts : List Part}

theorem wordsOf_digit (l : List UInt8) : ∀ w ∈ wordsOf l, Digit 0xffff w := by
  induction l using wordsOf.induct with
  | case1 => simp [wordsOf]
  | case2 high => simpa [wordsOf] using pairWord_digit (high,0)
  | case3 high low rest ih => exact List.forall_mem_cons.mpr ⟨pairWord_digit _,ih⟩

theorem wordsOf_append (rest : List UInt8) (even : l.length % 2 = 0) : wordsOf (l ++ rest) = wordsOf l ++ wordsOf rest := by
  induction l using wordsOf.induct with
  | case1 => rfl
  | case2 high => simp at even
  | case3 high low l ih =>
    have shorter : l.length % 2 = 0 := by
      rw [List.length_cons,List.length_cons] at even
      omega
    simp [wordsOf,ih shorter]

theorem wordsOf_some (some_ : ∃ byte ∈ l, byte ≠ 0) : ∃ w ∈ wordsOf l, w ≠ 0 := by
  have word {high low : UInt8} (other : high ≠ 0 ∨ low ≠ 0) : pairWord (high,low) ≠ 0 := by
    unfold pairWord
    simp only [ne_eq,← UInt8.toNat_inj,UInt8.toNat_zero] at other ⊢
    omega
  induction l using wordsOf.induct with
  | case1 => simp at some_
  | case2 high =>
    obtain ⟨byte,member,other⟩ := some_
    cases List.mem_singleton.mp member
    exact ⟨_,List.mem_cons_self,word (.inl other)⟩
  | case3 high low l ih =>
    by_cases first : high ≠ 0 ∨ low ≠ 0
    · exact ⟨_,List.mem_cons_self,word first⟩
    · obtain ⟨byte,member,other⟩ := some_
      have later : byte ∈ l := by
        simp only [not_or,not_not] at first
        simp only [List.mem_cons] at member
        rcases member with rfl | rfl | there
        · exact absurd first.1 other
        · exact absurd first.2 other
        · exact there
      obtain ⟨w,member,nonzero⟩ := ih ⟨byte,later,other⟩
      exact ⟨w,List.mem_cons_of_mem _ member,nonzero⟩

theorem wordLoop_ends {turn : Int → Int → Int} (keeps : ∀ {x w}, Digit 0xffff x → Digit 0xffff w → Digit 0xffff (turn x w))
    (digit : Digit 0xffff x) (even : l.length % 2 = 0) :
    ∃ xs, Ends (fun turns => wordLoop turn turns x l l.length) ((wordsOf l).foldl turn x,xs) ∧
      (∀ y ∈ xs, Digit 0xffff y) ∧ xs.length = l.length / 2 := by
  induction l using wordsOf.induct generalizing x with
  | case1 => exact ⟨[],.turn (fun turns => rfl) (.done _),by simp,rfl⟩
  | case2 high => simp at even
  | case3 high low l ih =>
    have next := keeps digit (pairWord_digit (high,low))
    rw [List.length_cons,List.length_cons] at even
    obtain ⟨xs,ends,within,length⟩ := ih next (by omega)
    refine ⟨turn x (pairWord (high,low)) :: xs,?_,List.forall_mem_cons.mpr ⟨next,within⟩,?_⟩
    · refine .turn (fun turns => ?_) (ends.map fun (last,xs) => (last,turn x (pairWord (high,low)) :: xs))
      have more : ((high :: low :: l).length : Int) ≠ 0 := by
        rw [List.length_cons]
        omega
      have left : ((high :: low :: l).length : Int) - 2 = l.length := by
        rw [List.length_cons,List.length_cons]
        omega
      rw [wordLoop,if_neg more,left]
      rfl
    · rw [List.length_cons,length,List.length_cons,List.length_cons]
      omega

theorem word_small {w : Int} (word : Digit 0xffff w) : w % 0x10000 = w :=
  Int.emod_eq_of_lt word.low (Int.lt_add_one_of_le word.high)

theorem subAll_turns (words : ∀ w ∈ ws, Digit 0xffff w) (x : Int) : ws.foldl (fun x old =>
    let x := x - old % 0x10000
    if x ≤ 0 then (x - 1) % 0x10000 else x) x = subAll 0xffff x ws := by
  induction ws generalizing x with
  | nil => rfl
  | cons w ws ih =>
    obtain ⟨word,others⟩ := List.forall_mem_cons.mp words
    rw [List.foldl_cons,ih others,word_small word]
    rfl

theorem addAll_turns (words : ∀ w ∈ ws, Digit 0xffff w) (x : Int) : ws.foldl (fun x new =>
    let x := x + new % 0x10000
    if x / 0x10000 % 2 = 1 then (x + 1) % 0x10000 else x) x = addAll 0xffff x ws := by
  induction ws generalizing x with
  | nil => rfl
  | cons w ws ih =>
    obtain ⟨word,others⟩ := List.forall_mem_cons.mp words
    rw [List.foldl_cons,ih others,word_small word]
    rfl

theorem optrLoop_ends (digit : Digit 0xffff x) (even : l.length % 2 = 0) :
    ∃ xs, Ends (fun turns => optrLoop turns x l l.length) (subAll 0xffff x (wordsOf l),xs) ∧
      (∀ y ∈ xs, Digit 0xffff y) ∧ xs.length = l.length / 2 := by
  rw [← subAll_turns (wordsOf_digit l)]
  refine wordLoop_ends (fun digit word => ?_) digit even
  dsimp only
  rw [word_small word]
  exact (digit.sub word).1

theorem nptrLoop_ends (digit : Digit 0xffff x) (even : l.length % 2 = 0) :
    ∃ xs, Ends (fun turns => nptrLoop turns x l l.length) (addAll 0xffff x (wordsOf l),xs) ∧
      (∀ y ∈ xs, Digit 0xffff y) ∧ xs.length = l.length / 2 := by
  rw [← addAll_turns (wordsOf_digit l)]
  refine wordLoop_ends (fun digit word => ?_) digit even
  dsimp only
  rw [word_small word]
  exact (digit.add word).1

theorem complement {w : Int} (digit : Digit 0xffff w) : (-w - 1) % 0x10000 = 0xffff - w := by
  obtain ⟨low,high⟩ := digit
  omega

-- What is stored is the word by which checksumadjust replaces the checksum.
theorem pairWord_bytes {w : Int} (digit : Digit 0xffff w) : pairWord (UInt8.ofInt (w / 256),UInt8.ofInt (w % 256)) = w := by
  obtain ⟨low,high⟩ := digit
  simp only [pairWord,UInt8.ofInt,UInt8.toNat_ofNat']
  omega

theorem checksumadjustLoops_ends (chksum : UInt8 × UInt8) (evenOld : olds.length % 2 = 0) (evenNew : news.length % 2 = 0) :
    ∃ stored xs, Ends (fun turns => checksumadjustLoops turns chksum olds olds.length news news.length) (stored,xs) ∧
      pairWord stored = adjust 0xffff (pairWord chksum) (wordsOf olds) (wordsOf news) ∧
      (∀ x ∈ xs, Digit 0xffff x) ∧ xs.length = olds.length / 2 + news.length / 2 := by
  have digit := pairWord_digit chksum
  have start : Digit 0xffff (0xffff - pairWord chksum) := ⟨by have := digit.high; omega,by have := digit.low; omega⟩
  obtain ⟨outs,out,within,length⟩ := optrLoop_ends start evenOld
  have between := (start.subAll (wordsOf_digit olds)).1
  obtain ⟨ins,in_,within',length'⟩ := nptrLoop_ends between evenNew
  have final := (digit.adjust (wordsOf_digit olds) (wordsOf_digit news)).1
  refine ⟨_,outs ++ ins,?_,pairWord_bytes final,List.forall_mem_append.mpr ⟨within,within'⟩,by rw [List.length_append,length,length']⟩
  rw [← complement digit] at out in_
  have last := (between.addAll (wordsOf_digit news)).1
  rw [adjust,← complement last,← complement digit]
  exact out.bind (in_.bind (.done _))

theorem pairs_words (even : l.length % 2 = 0) : (pairs l).map pairWord = wordsOf l := by
  induction l using wordsOf.induct with
  | case1 => rfl
  | case2 high => simp at even
  | case3 high low l ih =>
    rw [List.length_cons,List.length_cons] at even
    rw [pairs,List.map_cons,wordsOf,ih (by omega)]

theorem pairWord_inj {y z : UInt8 × UInt8} (same : pairWord y = pairWord z) : y = z := by
  have low := y.2.toNat_lt
  have low' := z.2.toNat_lt
  unfold pairWord at same
  exact Prod.ext (UInt8.toNat_inj.mp (by omega)) (UInt8.toNat_inj.mp (by omega))

theorem checksumadjustLoops_packet (p : Packet) (pos : Nat) (evenOld : olds.length % 2 = 0) (evenNew : news.length % 2 = 0) :
    ∃ stored xs, Ends (fun turns => checksumadjustLoops turns (p pos,p (pos+1)) olds olds.length news news.length) (stored,xs) ∧
      (checksumadjust p pos (pairs olds) (pairs news) pos,checksumadjust p pos (pairs olds) (pairs news) (pos+1)) = stored := by
  obtain ⟨stored,xs,ends,word,_⟩ := checksumadjustLoops_ends (p pos,p (pos+1)) evenOld evenNew
  refine ⟨stored,xs,ends,pairWord_inj ?_⟩
  rw [word,← pairs_words evenOld,← pairs_words evenNew]
  exact checksumadjust_word p pos (pairs olds) (pairs news)

-- Nothing but the replaced words and the checksum tells the two sums apart.
theorem sum_replaced (chksum stored : UInt8 × UInt8) (even : ∀ part ∈ parts, part.Even) (rest : List UInt8) :
    (wordsOf (parts.flatMap (Part.after stored) ++ rest)).sum + (wordsOf (parts.flatMap Part.old)).sum +
        parts.count .checksum * pairWord chksum =
      (wordsOf (parts.flatMap (Part.before chksum) ++ rest)).sum + (wordsOf (parts.flatMap Part.new)).sum +
        parts.count .checksum * pairWord stored := by
  induction parts with
  | nil => simp
  | cons part parts ih =>
    obtain ⟨here,others⟩ := List.forall_mem_cons.mp even
    have later := ih others
    simp only [List.flatMap_cons,List.append_assoc]
    cases part with
    | kept bytes =>
      simp only [Part.before,Part.after,Part.old,Part.new,List.nil_append,wordsOf_append _ here,List.sum_append]
      rw [List.count_cons_of_ne (by simp)]
      omega
    | field old new =>
      simp only [Part.before,Part.after,Part.old,Part.new,wordsOf_append _ here.1,wordsOf_append _ here.2,List.sum_append]
      rw [List.count_cons_of_ne (by simp)]
      omega
    | checksum =>
      simp only [Part.before,Part.after,Part.old,Part.new,List.nil_append,List.cons_append,wordsOf,List.sum_cons,Prod.mk.eta]
      rw [List.count_cons_self,Nat.cast_succ,add_mul,add_mul]
      omega

theorem data_after {byte : UInt8} (member : byte ∈ parts.flatMap Part.data ++ rest) :
    byte ∈ parts.flatMap (Part.after stored) ++ rest := by
  rcases List.mem_append.mp member with inside | behind
  · obtain ⟨part,there,in_⟩ := List.mem_flatMap.mp inside
    refine List.mem_append_left _ (List.mem_flatMap.mpr ⟨part,there,?_⟩)
    cases part with
    | kept bytes => exact in_
    | field old new => exact in_
    | checksum => cases in_
  · exact List.mem_append_right _ behind

theorem keeps_of_congr (counts : pairWord stored ≡ pairWord chksum + (wordsOf olds).sum - (wordsOf news).sum [ZMOD 0xffff]) :
    Keeps chksum stored olds news := by
  intro parts rest replaces some_ verifies
  have total := sum_replaced chksum stored replaces.even rest
  rw [replaces.checksum,replaces.old,replaces.new] at total
  unfold Verifies at verifies ⊢
  rw [addAll_full (wordsOf_digit _) (by decide)] at verifies ⊢
  obtain ⟨byte,member,other⟩ := some_
  refine ⟨?_,wordsOf_some ⟨byte,data_after member,other⟩⟩
  have zero := verifies.1
  unfold Int.ModEq at counts zero ⊢
  omega

end Bytes

-- The checksum is adjusted in as many turns as there are words, x stays a word in
-- each of them, and what is stored makes good for all that has been replaced.
theorem checksumadjust_incremental (chksum : UInt8 × UInt8) (olds news : List UInt8) (evenOld : olds.length % 2 = 0)
    (evenNew : news.length % 2 = 0) :
    ∃ stored xs, Ends (fun turns => checksumadjustLoops turns chksum olds olds.length news news.length) (stored,xs) ∧
      (0 ≤ pairWord stored ∧ pairWord stored ≤ 0xffff) ∧
      0xffff - pairWord stored ≡ 0xffff - pairWord chksum - (wordsOf olds).sum + (wordsOf news).sum [ZMOD 65535] ∧
      (xs.length = olds.length / 2 + news.length / 2 ∧ ∀ x ∈ xs, 0 ≤ x ∧ x ≤ 0xffff) ∧
      Keeps chksum stored olds news := by
  obtain ⟨stored,xs,ends,word,within,length⟩ := checksumadjustLoops_ends chksum evenOld evenNew
  obtain ⟨digit,counts,_⟩ := (pairWord_digit chksum).adjust (wordsOf_digit olds) (wordsOf_digit news)
  rw [← word] at digit counts
  refine ⟨stored,xs,ends,⟨digit.low,digit.high⟩,?_,⟨length,fun x member => ⟨(within x member).low,(within x member).high⟩⟩,
    keeps_of_congr counts⟩
  have same : 0xffff - (pairWord chksum + (wordsOf olds).sum - (wordsOf news).sum) =
      0xffff - pairWord chksum - (wordsOf olds).sum + (wordsOf news).sum := by omega
  rw [← same]
  exact counts.sub_left 0xffff

theorem port_incremental :
    ∃ stored xs, Ends (fun turns => checksumadjustLoops turns (0x12,0x34) [0x00,0x50] 2 [0x1f,0x90] 2) (stored,xs) ∧
      (0 ≤ pairWord stored ∧ pairWord stored ≤ 0xffff) ∧
      0xffff - pairWord stored ≡ 0xffff - pairWord (0x12,0x34) - (wordsOf [0x00,0x50]).sum + (wordsOf [0x1f,0x90]).sum
        [ZMOD 65535] ∧ (xs.length = 2 ∧ ∀ x ∈ xs, 0 ≤ x ∧ x ≤ 0xffff) ∧ Keeps (0x12,0x34) stored [0x00,0x50] [0x1f,0x90] :=
  checksumadjust_incremental (0x12,0x34) [0x00,0x50] [0x1f,0x90] rfl rfl

end NonosLinkLayer.Napt
