import NonosLinkLayer.Espconn.Stream

-- What lwIP does with the bytes that stand in line, told without the buffers
-- they stand in.
namespace NonosLinkLayer.Espconn
open HeapList Turns

section Semantics
variable (L : Lwip) (copy : Bool)

def fewer (len : UInt16) : UInt16 := if len < 3 then len - 1 else len / 2

-- Of `unsent` bytes those there is room for, and no more than two segments.
def chunk (pcb : L.Pcb) (unsent : UInt16) : UInt16 :=
  let len := if L.tcpSndbuf pcb < unsent then L.tcpSndbuf pcb else unsent
  if len.toNat > 2 * (L.mss pcb).toNat then UInt16.ofNat (2 * (L.mss pcb).toNat) else len

-- The first `len` bytes are offered, and fewer as long as lwIP has no memory for
-- them. Told are the number of those offered last and the answer to them.
inductive Takes (data : List UInt8) : L.Pcb → UInt16 → L.Pcb → UInt16 → Int → Prop where
  | answered : L.tcpWrite pcb (data.take len.toNat) copy = (next,err) → err ≠ errMem → Takes data pcb len next len err
  | exhausted : L.tcpWrite pcb (data.take len.toNat) copy = (next,errMem) → fewer len = 0 → Takes data pcb len next (fewer len) errMem
  | again : L.tcpWrite pcb (data.take len.toNat) copy = (middle,errMem) → fewer len ≠ 0 →
      Takes data middle (fewer len) next n err → Takes data pcb len next n err

inductive Piece : L.Pcb → List UInt8 → L.Pcb → List UInt8 → Int → Prop where
  | refused : Takes L copy bytes pcb (chunk L pcb (UInt16.ofNat bytes.length)) next n err → err ≠ errOk → Piece pcb bytes next bytes err
  | taken : Takes L copy bytes pcb (chunk L pcb (UInt16.ofNat bytes.length)) middle n errOk → L.tcpOutput middle = (next,err) →
      Piece pcb bytes next (bytes.drop n.toNat) err

inductive Offers : L.Pcb → List (List UInt8) → L.Pcb → List (List UInt8) → Int → Prop where
  | full : L.tcpSndbuf pcb = 0 → Offers pcb line pcb line errOk
  | finished : L.tcpSndbuf pcb ≠ 0 → Offers pcb [] pcb [] errOk
  | written : L.tcpSndbuf pcb ≠ 0 → Offers pcb rest next left err → Offers pcb ([] :: rest) next left err
  | stopped : L.tcpSndbuf pcb ≠ 0 → bytes ≠ [] → Piece L copy pcb bytes next left err → err ≠ errOk →
      Offers pcb (bytes :: rest) next (left :: rest) err
  | onward : L.tcpSndbuf pcb ≠ 0 → bytes ≠ [] → Piece L copy pcb bytes middle more errOk →
      Offers middle (more :: rest) next left err → Offers pcb (bytes :: rest) next left err

inductive Writes : L.Pcb → List (List UInt8) → L.Pcb → List (List UInt8) → Int → Prop where
  | queued : L.tcpNagleDisabled pcb = true ∧ L.sndQueuelen pcb ≥ tcpSndQueuelen → Writes pcb line pcb line espconnMem
  | offered : ¬ (L.tcpNagleDisabled pcb = true ∧ L.sndQueuelen pcb ≥ tcpSndQueuelen) → Offers L copy pcb line next left err →
      Writes pcb line next left err

end Semantics

section Determined
variable {L : Lwip} {copy : Bool} {pcb next next' : L.Pcb} {err err' : Int}

theorem Takes.unique {data : List UInt8} {len n n' : UInt16} (one : Takes L copy data pcb len next n err)
    (two : Takes L copy data pcb len next' n' err') : next = next' ∧ n = n' ∧ err = err' := by
  induction one with
  | answered result other =>
    cases two with
    | answered result' _ =>
      cases result.symm.trans result'
      exact ⟨rfl,rfl,rfl⟩
    | exhausted result' _ =>
      cases result.symm.trans result'
      exact absurd rfl other
    | again result' _ _ =>
      cases result.symm.trans result'
      exact absurd rfl other
  | exhausted result none =>
    cases two with
    | answered result' other =>
      cases result.symm.trans result'
      exact absurd rfl other
    | exhausted result' _ =>
      cases result.symm.trans result'
      exact ⟨rfl,rfl,rfl⟩
    | again _ some => exact absurd none some
  | again result some _ ih =>
    cases two with
    | answered result' other =>
      cases result.symm.trans result'
      exact absurd rfl other
    | exhausted _ none => exact absurd none some
    | again result' _ rest =>
      cases result.symm.trans result'
      exact ih rest

theorem Piece.unique {bytes left left' : List UInt8} (one : Piece L copy pcb bytes next left err)
    (two : Piece L copy pcb bytes next' left' err') : next = next' ∧ left = left' ∧ err = err' := by
  cases one with
  | refused takes bad =>
    cases two with
    | refused takes' _ =>
      obtain ⟨rfl,_,rfl⟩ := takes.unique takes'
      exact ⟨rfl,rfl,rfl⟩
    | taken takes' _ => exact absurd (takes.unique takes').2.2 bad
  | taken takes output =>
    cases two with
    | refused takes' bad => exact absurd (takes.unique takes').2.2.symm bad
    | taken takes' output' =>
      obtain ⟨rfl,rfl,_⟩ := takes.unique takes'
      cases output.symm.trans output'
      exact ⟨rfl,rfl,rfl⟩

theorem Offers.unique {line left left' : List (List UInt8)} (one : Offers L copy pcb line next left err)
    (two : Offers L copy pcb line next' left' err') : left = left' ∧ err = err' := by
  induction one with
  | full closed =>
    cases two with
    | full => exact ⟨rfl,rfl⟩
    | finished room => exact absurd closed room
    | written room => exact absurd closed room
    | stopped room => exact absurd closed room
    | onward room => exact absurd closed room
  | finished room =>
    cases two with
    | full closed => exact absurd closed room
    | finished => exact ⟨rfl,rfl⟩
  | written room _ ih =>
    cases two with
    | full closed => exact absurd closed room
    | written _ rest => exact ih rest
    | stopped _ some => exact absurd rfl some
    | onward _ some => exact absurd rfl some
  | stopped room some piece bad =>
    cases two with
    | full closed => exact absurd closed room
    | written => exact absurd rfl some
    | stopped _ _ piece' _ =>
      obtain ⟨_,rfl,rfl⟩ := piece.unique piece'
      exact ⟨rfl,rfl⟩
    | onward _ _ piece' _ => exact absurd (piece.unique piece').2.2 bad
  | onward room some piece _ ih =>
    cases two with
    | full closed => exact absurd closed room
    | written => exact absurd rfl some
    | stopped _ _ piece' bad => exact absurd (piece.unique piece').2.2.symm bad
    | onward _ _ piece' rest =>
      obtain ⟨rfl,rfl,_⟩ := piece.unique piece'
      exact ih rest

theorem Writes.unique {line left left' : List (List UInt8)} (one : Writes L copy pcb line next left err)
    (two : Writes L copy pcb line next' left' err') : left = left' ∧ err = err' := by
  cases one with
  | queued long =>
    cases two with
    | queued => exact ⟨rfl,rfl⟩
    | offered short => exact absurd long short
  | offered short offers =>
    cases two with
    | queued long => exact absurd long short
    | offered _ offers' => exact offers.unique offers'

theorem Offers.none {line left : List (List UInt8)} (offers : Offers L copy pcb line next left err) (none : ∀ bytes ∈ line, bytes = []) :
    ∀ bytes ∈ left, bytes = [] := by
  induction offers with
  | full => exact none
  | finished => exact none
  | written _ _ ih => exact ih fun bytes member => none bytes (List.mem_cons_of_mem _ member)
  | stopped _ some => exact absurd (none _ (List.mem_cons_self ..)) some
  | onward _ some => exact absurd (none _ (List.mem_cons_self ..)) some

theorem Writes.none {line left : List (List UInt8)} (writes : Writes L copy pcb line next left err) (none : ∀ bytes ∈ line, bytes = []) :
    ∀ bytes ∈ left, bytes = [] := by
  cases writes with
  | queued => exact none
  | offered _ offers => exact offers.none none

end Determined

def Queued {L : Lwip} (s : Sender L) (front back : List EspconnBuf) : Prop :=
  Lined s.heap s.pbuf s.ptail front back ∧ ∀ b ∈ front ++ back, b.Shaped

def Open {L : Lwip} (s : Sender L) (back : List EspconnBuf) : Prop := (∀ b ∈ back, b.punsent = []) → s.writeFlag = true

def Lwip.Sized (L : Lwip) : Prop := ∀ pcb, 0 < (L.mss pcb).toNat

section Loops
variable {L : Lwip} {copy : Bool} {s : Sender L} {front back rest : List EspconnBuf} {b : EspconnBuf} {pcb : L.Pcb} {len : UInt16}

theorem retryLoop_takes {psent : List UInt8} (positive : 0 < len.toNat) :
    Yields (fun turns => Sender.retryLoop L copy psent turns pcb len) fun (next,n,err) =>
      Takes L copy psent pcb len next n err ∧ (err = errOk → 0 < n.toNat ∧ n.toNat ≤ len.toNat) := by
  induction size : len.toNat using Nat.strong_induction_on generalizing pcb len with
  | _ n ih =>
    rcases result : L.tcpWrite pcb (psent.take len.toNat) copy with ⟨next,err⟩
    refine Yields.turn (retryLoop_turn result) ?_
    by_cases memory : err = errMem
    · subst memory
      have less : (fewer len).toNat < len.toNat := halved_less positive
      simp only [if_true]
      by_cases none : fewer len = 0
      · have nothing : ¬ (if len < 3 then len - 1 else len / 2) > 0 := fun some => UInt16.pos_iff_ne_zero.mp some none
        simp only [if_neg nothing]
        exact .done ⟨.exhausted result none,fun ok => absurd ok (by decide : errMem ≠ errOk)⟩
      · have more : (if len < 3 then len - 1 else len / 2) > 0 := UInt16.pos_iff_ne_zero.mpr none
        simp only [if_pos more]
        have rest := @ih (fewer len).toNat (size ▸ less) next (fewer len) (UInt16.lt_iff_toNat_lt.mp more) rfl
        refine rest.mono fun ⟨last,k,err⟩ ⟨takes,bounds⟩ => ⟨.again result none takes,fun ok => ?_⟩
        obtain ⟨some,most⟩ := bounds ok
        exact ⟨some,Nat.le_trans most (size ▸ Nat.le_of_lt less)⟩
    · simp only [if_neg memory]
      exact .done ⟨.answered result memory,fun _ => ⟨positive,Nat.le_of_eq size⟩⟩

theorem tcpSent_offers (sized : L.Sized) (queued : Queued s front (b :: rest)) (unsent : b.unsent ≠ 0) (room : L.tcpSndbuf s.pcb ≠ 0) :
    Yields (fun turns => s.espconnTcpSent turns b.punsent b.unsent) fun (t,err) => Wrote s t ∧ ∃ c, Queued t front (c :: rest) ∧
      Piece L s.copyDisabled s.pcb b.punsent t.pcb c.punsent err ∧ (err = errOk → c.unsent.toNat < b.unsent.toNat) ∧
      (s.copyDisabled = true → c.punsent = [] → t.writeFlag = true) := by
  obtain ⟨lined,shaped⟩ := queued
  have shapedB := shaped b (by simp)
  have length : UInt16.ofNat b.punsent.length = b.unsent := by
    rw [←shapedB.unsent]
    exact UInt16.ofNat_toNat
  have bounds := Stream.chunk_bounds (rfl : chunk L s.pcb b.unsent = _) (UInt16.pos_iff_ne_zero.mpr unsent)
    (UInt16.pos_iff_ne_zero.mpr room) (sized s.pcb)
  unfold Sender.espconnTcpSent
  simp only [if_neg unsent]
  refine (retryLoop_takes bounds.1).bind fun ⟨next,n,err⟩ ⟨takes,most⟩ => ?_
  rw [←length] at takes
  by_cases ok : err = errOk
  · subst ok
    obtain ⟨some,most⟩ := most rfl
    have within : n.toNat ≤ b.punsent.length := by
      rw [←shapedB.unsent]
      exact Nat.le_trans most bounds.2.1
    obtain ⟨_,node,_,store⟩ := lined.here
    obtain ⟨heap,stored,live,after⟩ := store (b.wrote n)
    have wrote := shapedB.wrote within
    unfold EspconnBuf.wrote at stored
    simp only [if_true]
    rw [node]
    dsimp only [Option.bind_eq_bind,Option.bind_some]
    rw [stored]
    dsimp only [Option.bind_some]
    refine .done ⟨⟨live,rfl,rfl,rfl,rfl,rfl,rfl,rfl,fun copied => ?_⟩,b.wrote n,⟨after,fun c member => ?_⟩,
      .taken takes rfl,fun _ => ?_,fun copied none => ?_⟩
    · exact if_neg fun both => Bool.false_ne_true (copied.symm.trans both.1)
    · rw [List.mem_append,List.mem_cons] at member
      rcases member with before | rfl | behind
      · exact shaped c (by simp [before])
      · exact wrote
      · exact shaped c (by simp [behind])
    · have less : (b.wrote n).unsent.toNat = b.unsent.toNat - n.toNat :=
        UInt16.toNat_sub_of_le _ _ (UInt16.le_iff_toNat_le.mpr (shapedB.unsent ▸ within))
      have some_ := UInt16.lt_iff_toNat_lt.mp (UInt16.pos_iff_ne_zero.mpr unsent)
      rw [less]
      change 0 < b.unsent.toNat at some_
      omega
    · exact if_pos ⟨copied,wrote.unsent_zero.mpr none⟩
  · simp only [if_neg ok]
    refine .done ⟨⟨rfl,rfl,rfl,rfl,rfl,rfl,rfl,rfl,fun _ => rfl⟩,b,⟨lined,shaped⟩,.refused takes ok,fun yes => absurd yes ok,
      fun _ none => absurd (shapedB.unsent_zero.mpr none) unsent⟩

-- What is in line behind the cursor is offered; and if the option bit is set, the
-- gate is open behind the last byte. Where nothing is left it is not touched.
def Offered (s : Sender L) (back : List EspconnBuf) (t : Sender L) (err : Int)
    (offers : Bool → L.Pcb → List (List UInt8) → L.Pcb → List (List UInt8) → Int → Prop) : Prop :=
  Wrote s t ∧ ∃ ahead behind, Queued t ahead behind ∧
    offers s.copyDisabled s.pcb (back.map EspconnBuf.punsent) t.pcb (behind.map EspconnBuf.punsent) err ∧
    (s.copyDisabled = true → Open s back → Open t behind) ∧ ((∀ b ∈ back, b.punsent = []) → t.writeFlag = s.writeFlag)

theorem Offered.passed {q : Ptr} {t : Sender L} {err : Int} (room : L.tcpSndbuf s.pcb ≠ 0) (none : b.punsent = [])
    (offered : Offered {s with ptail := q} rest t err (Offers L)) : Offered s (b :: rest) t err (Offers L) := by
  obtain ⟨wrote,ahead,behind,queued,offers,gate,idle⟩ := offered
  have kept : Wrote s {s with ptail := q} := ⟨rfl,rfl,rfl,rfl,rfl,rfl,rfl,rfl,fun _ => rfl⟩
  refine ⟨kept.trans wrote,ahead,behind,queued,?_,fun copied open_ => gate copied fun all => open_ fun c member => ?_,
    fun all => idle fun c member => all c (List.mem_cons_of_mem _ member)⟩
  · rw [List.map_cons,none]
    exact .written room offers
  · rcases List.mem_cons.mp member with rfl | later
    · exact none
    · exact all c later

theorem Offered.onward {m t : Sender L} {c : EspconnBuf} {err : Int} (room : L.tcpSndbuf s.pcb ≠ 0) (some_ : b.punsent ≠ [])
    (wrote : Wrote s m) (piece : Piece L s.copyDisabled s.pcb b.punsent m.pcb c.punsent errOk)
    (gate : s.copyDisabled = true → c.punsent = [] → m.writeFlag = true) (offered : Offered m (c :: rest) t err (Offers L)) :
    Offered s (b :: rest) t err (Offers L) := by
  obtain ⟨wrote',ahead,behind,queued,offers,gate',_⟩ := offered
  rw [wrote.copyDisabled] at offers gate'
  refine ⟨wrote.trans wrote',ahead,behind,queued,.onward room some_ piece offers,fun copied _ => gate' copied fun all => ?_,
    fun all => absurd (all b (by simp)) some_⟩
  exact gate copied (all c (by simp))

theorem writeLoop_offers (sized : L.Sized) (queued : Queued s front back) :
    Yields (fun turns => s.writeLoop turns errOk) fun (t,err) => Offered s back t err (Offers L) := by
  induction size : (back.map fun b => b.unsent.toNat + 1).sum using Nat.strong_induction_on generalizing s front back with
  | _ n ih =>
    refine Yields.turn (fun turns => rfl) ?_
    dsimp only [Sender.writeLoop]
    by_cases closed : L.tcpSndbuf s.pcb = 0
    · simp only [if_pos closed]
      exact .done ⟨.refl s,front,back,queued,.full closed,fun _ same => same,fun _ => rfl⟩
    simp only [if_neg closed]
    cases back with
    | nil =>
      simp only [if_pos queued.1.ended]
      exact .done ⟨.refl s,front,[],queued,.finished closed,fun _ same => same,fun _ => rfl⟩
    | cons b rest =>
      obtain ⟨real,node,⟨q,next,moved⟩,_⟩ := queued.1.here
      have shaped := queued.2 b (by simp)
      simp only [if_neg real]
      rw [node]
      dsimp only [Option.bind_eq_bind,Option.bind_some]
      by_cases done : b.unsent = 0
      · simp only [if_pos done]
        rw [next]
        dsimp only [Option.bind_some]
        have none := shaped.unsent_zero.mp done
        have smaller : (rest.map fun b => b.unsent.toNat + 1).sum < n := by
          rw [←size]
          exact Nat.lt_add_of_pos_left (Nat.succ_pos _)
        have onward : Queued {s with ptail := q} (front ++ [b]) rest := ⟨moved,by simpa using queued.2⟩
        exact (ih _ smaller onward rfl).mono fun _ offered => offered.passed closed none
      · simp only [if_neg done]
        have some_ : b.punsent ≠ [] := fun none => done (shaped.unsent_zero.mpr none)
        refine (tcpSent_offers sized queued done closed).bind fun ⟨t,err⟩ ⟨wrote,c,queued',piece,less,gate⟩ => ?_
        by_cases ok : err = errOk
        · subst ok
          have smaller : ((c :: rest).map fun b => b.unsent.toNat + 1).sum < n := by
            rw [←size,List.map_cons,List.map_cons,List.sum_cons,List.sum_cons]
            have fewer := less rfl
            omega
          simp only [if_true]
          exact (ih _ smaller queued' rfl).mono fun _ offered => offered.onward closed some_ wrote piece gate
        · simp only [if_neg ok]
          refine .done ⟨wrote,front,c :: rest,queued',.stopped closed some_ piece ok,fun copied _ all => ?_,
            fun all => absurd (all b (by simp)) some_⟩
          exact gate copied (all c (by simp))

theorem tcpWrite_offers (sized : L.Sized) (queued : Queued s front back) :
    Yields (fun turns => s.espconnTcpWrite turns) fun (t,err) => Offered s back t err (Writes L) := by
  unfold Sender.espconnTcpWrite
  by_cases limited : L.tcpNagleDisabled s.pcb = true ∧ L.sndQueuelen s.pcb ≥ tcpSndQueuelen
  · simp only [if_pos limited]
    exact .done ⟨.refl s,front,back,queued,.queued limited,fun _ same => same,fun _ => rfl⟩
  · simp only [if_neg limited]
    refine (writeLoop_offers sized queued).mono fun _ ⟨wrote,ahead,behind,queued',offers,gate⟩ => ?_
    exact ⟨wrote,ahead,behind,queued',.offered limited offers,gate⟩

structure Created (s : Sender L) (psent : List UInt8) (back : List EspconnBuf) (t : Sender L) (behind : List EspconnBuf) : Prop where
  appended : t.appended = s.appended ++ [psent]
  pcb : t.pcb = s.pcb
  copyDisabled : t.copyDisabled = s.copyDisabled
  writeFlag : s.copyDisabled = false → t.writeFlag = s.writeFlag
  line : behind.map EspconnBuf.punsent = back.map EspconnBuf.punsent ++ [psent]

theorem Queued.pbufCreate (queued : Queued s front back) {psent : List UInt8} (some_ : UInt16.ofNat psent.length ≠ 0)
    (small : psent.length < 65536) {p : Ptr} (fresh : s.heap.Fresh p) :
    Yields (fun turns => s.espconnPbufCreate turns p psent) fun t => ∃ behind, Queued t front behind ∧ Created s psent back t behind := by
  obtain ⟨lined,shaped⟩ := queued
  obtain ⟨heap,head,linked,_,after⟩ := lined.appended fresh ⟨psent,psent,UInt16.ofNat psent.length,UInt16.ofNat psent.length,0⟩
  refine ⟨_,?_,linked.bind (.done _)⟩
  refine ⟨_,⟨after,fun c member => ?_⟩,rfl,rfl,rfl,fun copied => ?_,by simp⟩
  · rw [←List.append_assoc] at member
    rcases List.mem_append.mp member with old | new
    · exact shaped c old
    · exact List.mem_singleton.mp new ▸ Stream.new_shaped some_ small
  · exact if_neg fun disabled => Bool.false_ne_true (copied.symm.trans disabled)

theorem Queued.full (queued : Queued s front back) : Yields (fun turns => s.full turns) fun _ => True := by
  unfold Sender.full Sender.espconnTcpGetBufCount
  by_cases copied : s.copyDisabled = false
  · simp only [if_pos copied]
    exact ⟨_,trivial,(queued.1.length.map _).map _⟩
  · simp only [if_neg copied]
    exact .done trivial

end Loops

def Refused {L : Lwip} (s : Sender L) (r : Request) : Prop :=
  (∀ bytes, r.psent = some bytes → UInt16.ofNat bytes.length = 0) ∨ r.found = false ∨ s.writeFlag = false ∨
    Ends (fun turns => s.full turns) true ∨ r.osZalloc s.heap = none

section Sent
variable {L : Lwip} {s t : Sender L} {front back : List EspconnBuf} {r : Request} {err : Int}

def Goes (s : Sender L) (back : List EspconnBuf) (bytes : List UInt8) (t : Sender L) (err : Int) : Prop :=
  ∃ m behind, Created s bytes back m behind ∧ Offered m behind t err (Writes L)

theorem Queued.sent (sized : L.Sized) (queued : Queued s front back) (r : Request) :
    Refused s r ∧ Yields (fun turns => s.espconnSent turns r) (fun (t,_) => t = s) ∨
    ¬ Refused s r ∧ ∃ bytes, r.psent = some bytes ∧
      Yields (fun turns => s.espconnSent turns r) fun (t,err) => Goes s back bytes t err := by
  unfold Sender.espconnSent
  cases psent : r.psent with
  | none => exact .inl ⟨.inl fun _ given => absurd (psent.symm.trans given) (by simp),.done rfl⟩
  | some bytes =>
    dsimp only [Option.bind_eq_bind]
    by_cases empty : UInt16.ofNat bytes.length = 0
    · simp only [if_pos empty]
      exact .inl ⟨.inl fun _ given => Option.some.inj (psent.symm.trans given) ▸ empty,.done rfl⟩
    simp only [if_neg empty]
    by_cases missing : r.found = false
    · simp only [if_pos missing]
      exact .inl ⟨.inr (.inl missing),.done rfl⟩
    simp only [if_neg missing]
    by_cases busy : s.writeFlag = false
    · simp only [if_pos busy]
      exact .inl ⟨.inr (.inr (.inl busy)),.done rfl⟩
    simp only [if_neg busy]
    obtain ⟨full,_,counted⟩ := queued.full
    cases full with
    | true => exact .inl ⟨.inr (.inr (.inr (.inl counted))),(s,espconnMaxnum),rfl,counted.bind (.done _)⟩
    | false =>
      cases given : r.osZalloc s.heap with
      | none => exact .inl ⟨.inr (.inr (.inr (.inr given))),(s,espconnMem),rfl,counted.bind (.done _)⟩
      | some p =>
        refine .inr ⟨?_,bytes,rfl,?_⟩
        · rintro (none | no | no | no | no)
          · exact empty (none bytes psent)
          · exact missing no
          · exact busy no
          · cases counted.unique no
          · rw [given] at no
            cases no
        · refine Yields.bind (P:=fun full => full = false) ⟨false,rfl,counted⟩ fun full isFull => ?_
          subst isFull
          refine (queued.pbufCreate empty (r.small bytes psent) (r.fresh _ p given)).bind fun m ⟨behind,queued',created⟩ => ?_
          exact (tcpWrite_offers sized queued').mono fun _ offered => ⟨m,behind,created,offered⟩

end Sent

end NonosLinkLayer.Espconn
