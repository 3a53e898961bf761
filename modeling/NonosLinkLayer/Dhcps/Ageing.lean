import NonosLinkLayer.Base.LeastScan
import NonosLinkLayer.Dhcps.Leases

namespace NonosLinkLayer.Dhcps
open LeastScan

-- What a tick of the lease timer is for: every dynamic lease is a tick older, and
-- the ones whose last tick this was are gone.
def DhcpsPool.older (p : DhcpsPool) : DhcpsPool :=
  match p.type with
  | .dynamic => {p with leaseTimer := p.leaseTimer - 1}
  | .static => p

def DhcpsPool.expires (p : DhcpsPool) : Prop := p.type = .dynamic ∧ p.leaseTimer = 1
instance (p : DhcpsPool) : Decidable p.expires := inferInstanceAs (Decidable (_ ∧ _))

def aged (l : List DhcpsPool) : List DhcpsPool := (l.filter fun p => ¬p.expires).map DhcpsPool.older

def OldestGone (l l' : List DhcpsPool) : Prop :=
  ∃ i p, l[i]? = some p ∧ (∀ q ∈ l, p.leaseTimer ≤ q.leaseTimer) ∧ l' = l.eraseIdx i

def Aged (l l' : List DhcpsPool) : Prop :=
  if (aged l).length < maxStationNum.toNat then l' = aged l else OldestGone (aged l) l'

def Ticked (s : Server) : Prop := ∃ plist, dhcpsCoarseTmr s = some {s with plist := plist} ∧ Aged s.plist plist

def DhcpsPool.offline (p : DhcpsPool) : DhcpsPool := {p with state := .offline}

-- The first lease is not older than all others, and setting the state of the last
-- one changes nothing: it is offline, or it is the one to go, up to leases right
-- before it that are copies of it but offline.
def Spares (l : List DhcpsPool) : Prop :=
  ∀ head between last, l = head :: (between ++ [last]) →
    (∃ q ∈ between ++ [last], q.leaseTimer ≤ head.leaseTimer) ∧
    (last.state = .offline ∨ ∃ front n, between = front ++ List.replicate n last.offline ∧
      ∀ p ∈ front, last.leaseTimer < p.leaseTimer)

section Ageing
variable {l l' seen between : List DhcpsPool} {head last p q : DhcpsPool} {k : Nat}

abbrev timer (p : DhcpsPool) : Nat := p.leaseTimer.toNat

theorem tick_older (p : DhcpsPool) : p.tick = p.older := by
  unfold DhcpsPool.tick DhcpsPool.older
  cases p.type <;> rfl

theorem tick_zero (alive : 1 ≤ p.leaseTimer) : p.tick.leaseTimer = 0 ↔ p.expires := by
  unfold DhcpsPool.tick DhcpsPool.expires
  by_cases dynamic : p.type = .dynamic
  · rw [if_pos dynamic]
    simp only [dynamic,true_and]
    exact (UInt32.sub_eq_iff_eq_add).trans (by rw [UInt32.zero_add])
  · rw [if_neg dynamic]
    simp only [dynamic,false_and,iff_false]
    intro zero
    rw [zero] at alive
    exact absurd alive (by decide)

theorem coarse_aged (l : List DhcpsPool) (alive : ∀ p ∈ l, 1 ≤ p.leaseTimer) (num : UInt8) :
    (coarseLoop l num).1 = aged l := by
  induction l generalizing num with
  | nil => rfl
  | cons p rest ih =>
    have others := ih fun q member => alive q (List.mem_cons_of_mem _ member)
    unfold coarseLoop
    by_cases gone : p.expires
    · rw [if_pos ((tick_zero (alive p List.mem_cons_self)).mpr gone),others,aged,aged,
        List.filter_cons_of_neg (by simpa using gone)]
    · rw [if_neg (mt (tick_zero (alive p List.mem_cons_self)).mp gone)]
      dsimp only
      rw [others,aged,aged,List.filter_cons_of_pos (by simpa using gone),List.map_cons,tick_older]

theorem oldest_first (found : FirstLeast timer seen k q) (l : List DhcpsPool) :
    ∃ j p, FirstLeast timer (seen ++ l) j p ∧ oldestLoop (k+1) q (seen.length + 1) l = j + 1 := by
  induction l generalizing seen k q with
  | nil => exact ⟨k,q,by rwa [List.append_nil],rfl⟩
  | cons p rest ih =>
    have split : seen ++ p :: rest = (seen ++ [p]) ++ rest := by rw [List.append_assoc,List.singleton_append]
    have length : (seen ++ [p]).length = seen.length + 1 := List.length_append
    unfold oldestLoop
    rw [split,←length]
    by_cases less : p.leaseTimer < q.leaseTimer
    · rw [if_pos less,length]
      have further := ih (found.less (UInt32.lt_iff_toNat_lt.mp less))
      rwa [length] at further
    · rw [if_neg less]
      exact ih (found.more (UInt32.le_iff_toNat_le.mp (UInt32.not_lt.mp less)))

theorem eraseIdx_last (l : List DhcpsPool) (last : DhcpsPool) : (l ++ [last]).eraseIdx l.length = l := by
  rw [List.eraseIdx_append_of_length_le (Nat.le_refl _),Nat.sub_self,List.eraseIdx_cons_zero,List.append_nil]

theorem modify_last (f : DhcpsPool → DhcpsPool) (l : List DhcpsPool) (last : DhcpsPool) :
    (l ++ [last]).modify l.length f = l ++ [f last] := by
  induction l with
  | nil => rfl
  | cons p rest ih => rw [List.cons_append,List.length_cons,List.modify_succ_cons,ih,List.cons_append]

-- The last node is set offline, and the first one behind the head with the least
-- timer there goes.
theorem kill_split (head last : DhcpsPool) (between : List DhcpsPool) :
    ∃ k q, FirstLeast timer (between ++ [last]) k q ∧
      killOldestDhcpsPool (head :: (between ++ [last])) = some (head :: (between ++ [last.offline]).eraseIdx k) := by
  obtain ⟨p,rest,split⟩ := List.exists_cons_of_ne_nil (show between ++ [last] ≠ [] by simp)
  obtain ⟨k,q,found,scanned⟩ := oldest_first (firstLeast_single timer p) rest
  have length : rest.length = between.length := by
    have same := congrArg List.length split
    rw [List.length_append,List.length_singleton,List.length_cons] at same
    omega
  have scanned' : oldestLoop 1 p 1 (p :: rest) = k + 1 := by
    rw [oldestLoop,if_neg (UInt32.lt_irrefl _)]
    exact scanned
  rw [List.singleton_append,←split] at found
  refine ⟨k,q,found,?_⟩
  rw [split]
  unfold killOldestDhcpsPool nodeRemoveFromList
  dsimp only
  rw [scanned',List.modify_succ_cons,List.eraseIdx_cons_succ,←split,length,modify_last]
  rfl

theorem shifted_const {x a : DhcpsPool} (same : l ++ [a] = x :: l) : x = a ∧ l = List.replicate l.length a := by
  induction l generalizing x with
  | nil =>
    cases same
    exact ⟨rfl,rfl⟩
  | cons y rest ih =>
    obtain ⟨head,behind⟩ := List.cons.inj same
    obtain ⟨last,others⟩ := ih behind
    refine ⟨head.symm.trans last,?_⟩
    rw [List.length_cons,List.replicate_succ,←others,last]

theorem erased_const {a : DhcpsPool} (below : k < l.length) (same : l.eraseIdx k ++ [a] = l) :
    l[k] = a ∧ l = l.take k ++ List.replicate (l.length - k) a := by
  have cut : l.take k ++ (l[k] :: l.drop (k+1)) = l := by
    rw [←List.drop_eq_getElem_cons below]
    exact List.take_append_drop k l
  rw [List.eraseIdx_eq_take_drop_succ,List.append_assoc] at same
  obtain ⟨here,behind⟩ := shifted_const (List.append_cancel_left (same.trans cut.symm))
  refine ⟨here,?_⟩
  have length : l.length - k = (l.drop (k+1)).length + 1 := by
    rw [List.length_drop]
    omega
  rw [length,List.replicate_succ,←behind]
  rw [here] at cut
  exact cut.symm

theorem spares_iff (head last : DhcpsPool) (between : List DhcpsPool) :
    Spares (head :: (between ++ [last])) ↔
      (∃ q ∈ between ++ [last], q.leaseTimer ≤ head.leaseTimer) ∧
      (last.state = .offline ∨ ∃ front n, between = front ++ List.replicate n last.offline ∧
        ∀ p ∈ front, last.leaseTimer < p.leaseTimer) := by
  constructor
  · exact fun spares => spares head between last rfl
  · intro holds head' between' last' same
    obtain ⟨rfl,behind⟩ := List.cons.inj same
    obtain ⟨rfl,final⟩ := List.append_inj' behind rfl
    rw [←List.singleton_inj.mp final]
    exact holds

section Kill
variable {head last q : DhcpsPool} {between rest : List DhcpsPool} {k : Nat}

theorem gone_older (gone : OldestGone (head :: (between ++ [last])) (head :: rest)) :
    ∃ q ∈ between ++ [last], q.leaseTimer ≤ head.leaseTimer := by
  obtain ⟨i,p,here,least,same⟩ := gone
  by_contra none_
  have younger : ∀ q ∈ between ++ [last], head.leaseTimer < q.leaseTimer :=
    fun q member => UInt32.not_le.mp fun older => none_ ⟨q,member,older⟩
  cases i with
  | zero =>
    rw [List.eraseIdx_cons_zero] at same
    exact UInt32.lt_irrefl _ (younger head (same ▸ List.mem_cons_self))
  | succ j =>
    have low := least head List.mem_cons_self
    exact absurd (younger p (List.mem_of_getElem? here)) (UInt32.not_lt.mpr low)

-- Where the last node is set offline, it must be what moves into the gap.
theorem gone_copies (found : FirstLeast timer (between ++ [last]) k q) (on : last.state ≠ .offline)
    (gone : OldestGone (head :: (between ++ [last])) (head :: (between ++ [last.offline]).eraseIdx k)) :
    ∃ front n, between = front ++ List.replicate n last.offline ∧ ∀ p ∈ front, last.leaseTimer < p.leaseTimer := by
  obtain ⟨i,p,here,least,same⟩ := gone
  have inside : k < between.length + 1 := by
    have bound := found.below
    rwa [List.length_append,List.length_singleton] at bound
  by_cases final : k = between.length
  · subst final
    refine ⟨between,0,by rw [List.replicate_zero,List.append_nil],?_⟩
    have here' := found.here
    rw [List.getElem?_concat_length] at here'
    cases here'
    have first := found.first
    rw [List.take_left] at first
    exact fun p member => UInt32.lt_iff_toNat_lt.mpr (first p member)
  have before : k < between.length := by omega
  rw [List.eraseIdx_append_of_lt_length before] at same
  by_cases early : i < between.length + 1
  · rw [←List.cons_append,←@List.cons_append _ head between,
      List.eraseIdx_append_of_lt_length (l:=head :: between) (by simpa using early)] at same
    have moved : last.offline = last := List.singleton_inj.mp (List.append_inj_right' same rfl)
    exact absurd (congrArg DhcpsPool.state moved).symm on
  have late : i = (head :: between).length := by
    have bound := (List.getElem?_eq_some_iff.mp here).1
    rw [List.length_cons,List.length_append,List.length_singleton] at bound
    rw [List.length_cons]
    omega
  rw [late,←List.cons_append,←List.cons_append,eraseIdx_last] at same
  obtain ⟨copy,copies⟩ := erased_const before (List.cons.inj same).2
  refine ⟨between.take k,between.length - k,copies,?_⟩
  have first := found.first
  rw [List.take_append_of_le_length before.le] at first
  have here' := found.here
  rw [List.getElem?_append_left before,List.getElem?_eq_getElem before,copy] at here'
  cases here'
  exact fun p member => UInt32.lt_iff_toNat_lt.mpr (first p member)

theorem least_all (found : FirstLeast timer (between ++ [last]) k q) (older : ∃ r ∈ between ++ [last], r.leaseTimer ≤ head.leaseTimer) :
    ∀ p ∈ head :: (between ++ [last]), q.leaseTimer ≤ p.leaseTimer := by
  obtain ⟨r,member,older⟩ := older
  intro p inside
  rcases List.mem_cons.mp inside with rfl | behind
  · exact UInt32.le_trans (UInt32.le_iff_toNat_le.mpr (found.least r member)) older
  · exact UInt32.le_iff_toNat_le.mpr (found.least p behind)

theorem copies_gone {front : List DhcpsPool} {n : Nat} (above : ∀ p ∈ front, last.leaseTimer < p.leaseTimer)
    (found : FirstLeast timer (front ++ List.replicate n last.offline ++ [last]) k q)
    (least : ∀ p ∈ head :: (front ++ List.replicate n last.offline ++ [last]), q.leaseTimer ≤ p.leaseTimer) :
    OldestGone (head :: (front ++ List.replicate n last.offline ++ [last]))
      (head :: (front ++ List.replicate n last.offline ++ [last.offline]).eraseIdx k) := by
  have alike : ∀ p ∈ List.replicate n last.offline ++ [last], timer p = timer last := by
    intro p member
    rcases List.mem_append.mp member with copy | same
    · rw [List.eq_of_mem_replicate copy]
      rfl
    · rw [List.mem_singleton.mp same]
  obtain ⟨x,back,split⟩ := List.exists_cons_of_ne_nil (show List.replicate n last.offline ++ [last] ≠ [] by simp)
  rw [split] at alike
  have here := alike x List.mem_cons_self
  have earliest : FirstLeast timer (front ++ List.replicate n last.offline ++ [last]) front.length x := by
    rw [List.append_assoc,split]
    refine firstLeast_split (fun p member => ?_) (fun p member => ?_)
    · exact here ▸ UInt32.lt_iff_toNat_lt.mp (above p member)
    · exact (here.trans (alike p (List.mem_cons_of_mem _ member)).symm).le
  have place := found.unique earliest
  subst place
  have oldest : ∀ p ∈ head :: (front ++ List.replicate n last.offline ++ [last]), last.leaseTimer ≤ p.leaseTimer := by
    have same : q = x := Option.some.inj (found.here.symm.trans earliest.here)
    intro p inside
    have bound := UInt32.le_iff_toNat_le.mp (least p inside)
    rw [same] at bound
    exact UInt32.le_iff_toNat_le.mpr (here.ge.trans bound)
  refine ⟨(head :: (front ++ List.replicate n last.offline)).length,last,?_,oldest,?_⟩
  · exact List.getElem?_concat_length
  · rw [←@List.cons_append _ _ _ [last],eraseIdx_last,List.append_assoc,
      List.eraseIdx_append_of_length_le (Nat.le_refl _),Nat.sub_self,←List.replicate_succ']
    rfl

end Kill

-- For a pool of two or more, exactly one of the oldest goes and all others stay as
-- they are when `Spares` says so.
theorem kill_exact (head last : DhcpsPool) (between : List DhcpsPool) :
    ∃ l', killOldestDhcpsPool (head :: (between ++ [last])) = some l' ∧
      (OldestGone (head :: (between ++ [last])) l' ↔ Spares (head :: (between ++ [last]))) := by
  rw [spares_iff]
  obtain ⟨k,q,found,killed⟩ := kill_split head last between
  refine ⟨_,killed,?_,?_⟩
  · intro gone
    refine ⟨gone_older gone,?_⟩
    by_cases off : last.state = .offline
    · exact .inl off
    · exact .inr (gone_copies found off gone)
  · rintro ⟨older,change⟩
    have least := least_all found older
    rcases change with off | ⟨front,n,rfl,above⟩
    · have same : last.offline = last := by
        unfold DhcpsPool.offline
        rw [←off]
      rw [same]
      exact ⟨k+1,q,found.here,least,rfl⟩
    · exact copies_gone above found least

-- As many leases are counted as are left, if they are no more than eight bits count.
theorem timer_aged (s : Server) (few : s.plist.length ≤ 255) (alive : ∀ p ∈ s.plist, 1 ≤ p.leaseTimer) :
    dhcpsCoarseTmr s = if (aged s.plist).length < maxStationNum.toNat then some {s with plist := aged s.plist}
      else (killOldestDhcpsPool (aged s.plist)).map fun plist => {s with plist := plist} := by
  have count := coarse_count s.plist 0
  have left := coarse_aged s.plist alive 0
  have fewer : (aged s.plist).length ≤ 255 := by
    unfold aged
    rw [List.length_map]
    exact (List.length_filter_le ..).trans few
  unfold dhcpsCoarseTmr
  generalize coarseLoop s.plist 0 = r at count left
  obtain ⟨plist,num⟩ := r
  dsimp only at count left ⊢
  have counted : num.toNat = (aged s.plist).length := by
    rw [count,left,UInt8.zero_add,UInt8.toNat_ofNat']
    omega
  rw [left]
  by_cases below : (aged s.plist).length < maxStationNum.toNat
  · rw [if_pos below,if_neg (UInt8.not_le.mpr (UInt8.lt_iff_toNat_lt.mpr (counted ▸ below)))]
  · rw [if_neg below,if_pos (UInt8.le_iff_toNat_le.mpr (counted ▸ not_lt.mp below))]

-- A tick of the timer does what it is for exactly if it leaves fewer leases than
-- stations, or spares the right ones.
theorem timer_ages (s : Server) (few : s.plist.length ≤ 255) (alive : ∀ p ∈ s.plist, 1 ≤ p.leaseTimer) :
    Ticked s ↔ (aged s.plist).length < maxStationNum.toNat ∨ Spares (aged s.plist) := by
  unfold Ticked Aged
  rw [timer_aged s few alive]
  by_cases below : (aged s.plist).length < maxStationNum.toNat
  · simp only [if_pos below]
    exact iff_of_true ⟨_,rfl,rfl⟩ (.inl below)
  · simp only [if_neg below]
    rw [or_iff_right below]
    obtain ⟨head,rest,split⟩ := List.exists_cons_of_length_pos (show 0 < (aged s.plist).length by
      have many := not_lt.mp below
      exact Nat.lt_of_lt_of_le (by decide) many)
    have behind : rest ≠ [] := by
      rintro rfl
      rw [split,List.length_singleton] at below
      exact below (by decide)
    have final := List.dropLast_concat_getLast behind
    obtain ⟨l',killed,exactly⟩ := kill_exact head (rest.getLast behind) rest.dropLast
    rw [final] at killed exactly
    rw [split,killed,←exactly]
    constructor
    · rintro ⟨plist,same,gone⟩
      cases Option.some.inj same
      exact gone
    · exact fun gone => ⟨l',rfl,gone⟩

def stations (timers : List UInt32) : List DhcpsPool :=
  timers.mapIdx fun i timer =>
    ⟨htonl (0xC0A80402 + UInt32.ofNat i),#v[2,0,0,0,0,UInt8.ofNat i],timer,.dynamic,.online⟩

def crowded (timers : List UInt32) : Server := ⟨⟨true,0x0204A8C0,0x6604A8C0⟩,stations timers,false,120⟩

-- The last of eight is the oldest, and goes.
theorem oldest_last_ages : Ticked (crowded [10,10,10,10,10,10,10,5]) := by
  refine (timer_ages (crowded [10,10,10,10,10,10,10,5]) (by decide) (by decide)).mpr (.inr ?_)
  have pool : aged (crowded [10,10,10,10,10,10,10,5]).plist = (stations [9,9,9,9,9,9,9,4]).head (by decide) ::
      ((stations [9,9,9,9,9,9,9,4]).tail.dropLast ++ [(stations [9,9,9,9,9,9,9,4]).getLast (by decide)]) := by decide
  rw [pool,spares_iff]
  exact ⟨⟨_,List.mem_append_right _ (List.mem_singleton_self _),by decide⟩,
    .inr ⟨_,0,(List.append_nil _).symm,by decide⟩⟩

-- The first of eight is the oldest, and the second goes.
theorem oldest_first_stays : ¬∀ s : Server, s.plist.length ≤ 255 → (∀ p ∈ s.plist, 1 ≤ p.leaseTimer) → Ticked s := by
  intro always
  obtain ⟨plist,ran,done⟩ := always (crowded [5,10,10,10,10,10,10,10]) (by decide) (by decide)
  unfold Aged at done
  rw [if_neg (by decide)] at done
  obtain ⟨i,p,here,least,gone⟩ := done
  have first := least ((stations [4,9,9,9,9,9,9,9]).head (by decide)) (by decide)
  have others : ∀ q ∈ (aged (crowded [5,10,10,10,10,10,10,10]).plist).tail, 4 < q.leaseTimer := by decide
  cases i with
  | zero =>
    have killed : (dhcpsCoarseTmr (crowded [5,10,10,10,10,10,10,10])).map (fun s => s.plist.map DhcpsPool.leaseTimer) =
        some [4,9,9,9,9,9,9] := by decide
    rw [ran,gone] at killed
    exact absurd killed (by decide)
  | succ j =>
    rw [←List.getElem?_tail] at here
    exact absurd first (UInt32.not_le.mpr (others p (List.mem_of_getElem? here)))

end Ageing

end NonosLinkLayer.Dhcps
