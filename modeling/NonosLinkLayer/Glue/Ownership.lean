import NonosLinkLayer.Glue.Linkoutput

namespace NonosLinkLayer.Glue
open HeapList Transitions

def GlueState.refs (g : GlueState) (p : Ptr) : Nat := (g.pbufs p).elim 0 fun b => b.ref.toNat

def holding (flights : List Flight) (p : Ptr) : Nat := flights.countP fun f => f.pbuf = p

def bump (count : Ptr → Nat) (p : Ptr) : Ptr → Nat := Function.update count p (count p + 1)

-- A pbuf is there as long as lwIP or the glue holds it, and its eight bits count
-- the two together.
structure Balanced (g : GlueState) (own count : Ptr → Nat) : Prop where
  counted : ∀ p b, g.pbufs p = some b → p ≠ null ∧ 0 < own p + count p ∧ b.ref = UInt8.ofNat (own p + count p)
  gone : ∀ p, g.pbufs p = none → own p + count p = 0

def Cloned (g : GlueState) (own : Ptr → Nat) (n : Nat) : Prop :=
  (∃ p b, g.pbufs p = some b ∧ b.serial = n ∧ b.ref = 1 ∧ own p = 0 ∧ g.freed.count n = 0) ∨
  ((∀ p b, g.pbufs p = some b → b.serial ≠ n) ∧ g.freed.count n = 1)

structure Ledger (g : GlueState) (own : Ptr → Nat) : Prop where
  issued : ∀ p b, g.pbufs p = some b → b.serial < g.issued
  single : ∀ p q b c, g.pbufs p = some b → g.pbufs q = some c → b.serial = c.serial → p = q
  past : ∀ n ∈ g.freed, n < g.issued
  earlier : ∀ n ∈ g.clones, n < g.issued
  clones : ∀ n ∈ g.clones, Cloned g own n

structure Owned (g : GlueState) (own count : Ptr → Nat) (flights : List Flight) : Prop where
  pool : g.pool.Kept (flights.map Flight.wrapper)
  saved : ∀ f ∈ flights, (g.pool.heap.pnode f.wrapper).ref2save = f.pbuf
  balanced : Balanced g own count
  ledger : Ledger g own

variable {g next : GlueState} {own own' count : Ptr → Nat} {flights : List Flight} {f : Flight} {p q : Ptr} {b c : GitPbuf}
  {num : Fin 2} {clone : Option (Ptr × Ptr)} {malloc : Option Given}

theorem unref_some {n : Nat} (ref : b.ref = UInt8.ofNat (n + 1)) (left : GlueState.unref b = some c) :
    0 < n ∧ c.ref = UInt8.ofNat n := by
  have one : b.ref - 1 = UInt8.ofNat n := by simp [ref]
  unfold GlueState.unref at left
  rw [one] at left
  split at left
  · cases left
  · rename_i more
    cases left
    exact ⟨Nat.pos_of_ne_zero fun zero => more (by rw [zero]; rfl),rfl⟩

theorem unref_none {n : Nat} (ref : b.ref = UInt8.ofNat (n + 1)) (small : n ≤ 255) (gone : GlueState.unref b = none) : n = 0 := by
  have one : b.ref - 1 = UInt8.ofNat n := by simp [ref]
  unfold GlueState.unref at gone
  rw [one] at gone
  split at gone
  · rename_i zero
    have bits := congrArg UInt8.toNat zero
    rw [UInt8.toNat_ofNat_of_lt' (by simpa [UInt8.size] using Nat.lt_succ_of_le small)] at bits
    exact bits
  · cases gone

theorem unref_serial (left : GlueState.unref b = some c) : c.serial = b.serial := by
  unfold GlueState.unref at left
  split at left <;> cases left
  rfl

theorem holding_cons (f : Flight) (flights : List Flight) : holding (f :: flights) = bump (holding flights) f.pbuf := by
  funext p
  unfold holding bump
  rw [List.countP_cons]
  by_cases here : p = f.pbuf
  · rw [here,Function.update_self]
    simp
  · rw [Function.update_of_ne here,if_neg (by simpa using Ne.symm here),Nat.add_zero]

theorem holding_erase (member : f ∈ flights) : holding flights = bump (holding (flights.erase f)) f.pbuf := by
  rw [←holding_cons]
  funext p
  exact (List.perm_cons_erase member).countP_eq _

theorem holding_positive (member : f ∈ flights) : 0 < holding flights f.pbuf :=
  List.countP_pos_iff.mpr ⟨f,member,by simp⟩

namespace Balanced

theorem updated (balanced : Balanced g own count) {count' : Ptr → Nat} (o : Option GitPbuf)
    (here : ∀ c, o = some c → p ≠ null ∧ 0 < own' p + count' p ∧ c.ref = UInt8.ofNat (own' p + count' p))
    (left : o = none → own' p + count' p = 0) (apart : ∀ q, q ≠ p → own' q = own q ∧ count' q = count q)
    (same : next.pbufs = Function.update g.pbufs p o) : Balanced next own' count' := by
  refine ⟨fun q c there => ?_,fun q gone => ?_⟩
  · rw [same] at there
    by_cases at_p : q = p
    · rw [at_p,Function.update_self] at there
      rw [at_p]
      exact here c there
    · rw [Function.update_of_ne at_p] at there
      rw [(apart q at_p).1,(apart q at_p).2]
      exact balanced.counted q c there
  · rw [same] at gone
    by_cases at_p : q = p
    · rw [at_p,Function.update_self] at gone
      rw [at_p]
      exact left gone
    · rw [Function.update_of_ne at_p] at gone
      rw [(apart q at_p).1,(apart q at_p).2]
      exact balanced.gone q gone

theorem fresh (balanced : Balanced g own count) (gone : g.pbufs p = none) : own p = 0 ∧ count p = 0 :=
  Nat.add_eq_zero_iff.mp (balanced.gone p gone)

theorem there (balanced : Balanced g own count) (some_ref : 0 < own p + count p) : ∃ b, g.pbufs p = some b := by
  cases there : g.pbufs p with
  | none => exact absurd (balanced.gone p there) (Nat.ne_of_gt some_ref)
  | some b => exact ⟨b,rfl⟩

-- Up to 255 references the eight bits are all of them.
theorem refs (balanced : Balanced g own count) (small : own p + count p ≤ 255) : g.refs p = own p + count p := by
  unfold GlueState.refs
  cases there : g.pbufs p with
  | none => exact (balanced.gone p there).symm
  | some b =>
    rw [Option.elim_some,(balanced.counted p b there).2.2]
    exact UInt8.toNat_ofNat_of_lt' (Nat.lt_succ_of_le small)

end Balanced

namespace Ledger

theorem updated (ledger : Ledger g own) (there : g.pbufs p = some b) (holds : 0 < own p) (o : Option GitPbuf)
    (serial : ∀ c, o = some c → c.serial = b.serial) (apart : ∀ q, q ≠ p → own' q = own q)
    (same : next.pbufs = Function.update g.pbufs p o) (issued : next.issued = g.issued) (clones : next.clones = g.clones)
    (freed : next.freed = g.freed) : Ledger next own' := by
  have old : ∀ q c, next.pbufs q = some c → ∃ d, g.pbufs q = some d ∧ d.serial = c.serial := by
    intro q c found
    rw [same] at found
    by_cases here : q = p
    · rw [here,Function.update_self] at found
      exact ⟨b,here ▸ there,(serial c found).symm⟩
    · rw [Function.update_of_ne here] at found
      exact ⟨c,found,rfl⟩
  refine ⟨fun q c found => ?_,fun x y c d one two equal => ?_,fun n member => ?_,fun n member => ?_,fun n member => ?_⟩
  · obtain ⟨d,before,equal⟩ := old q c found
    rw [issued,←equal]
    exact ledger.issued q d before
  · obtain ⟨c',one',equal'⟩ := old x c one
    obtain ⟨d',two',equal''⟩ := old y d two
    exact ledger.single x y c' d' one' two' (equal'.trans (equal.trans equal''.symm))
  · rw [issued]
    exact ledger.past n (freed ▸ member)
  · rw [issued]
    exact ledger.earlier n (clones ▸ member)
  · rcases ledger.clones n (clones ▸ member) with ⟨q,c,found,equal,one,other,count⟩ | ⟨gone,count⟩
    · have elsewhere : q ≠ p := by
        rintro rfl
        omega
      refine Or.inl ⟨q,c,?_,equal,one,(apart q elsewhere).trans other,by rwa [freed]⟩
      rw [same,Function.update_of_ne elsewhere]
      exact found
    · refine Or.inr ⟨fun q c found equal => ?_,by rwa [freed]⟩
      obtain ⟨d,before,equal'⟩ := old q c found
      exact gone q d before (equal'.trans equal)

theorem allocated (ledger : Ledger g own) (gone : g.pbufs p = none) (serial : b.serial = g.issued)
    (apart : ∀ q, q ≠ p → own' q = own q) (same : next.pbufs = Function.update g.pbufs p (some b))
    (issued : next.issued = g.issued + 1) (freed : next.freed = g.freed)
    (clones : ∀ n ∈ next.clones, n ∈ g.clones ∨ n = g.issued ∧ b.ref = 1 ∧ own' p = 0) : Ledger next own' := by
  have old : ∀ q c, next.pbufs q = some c → (q = p ∧ c = b) ∨ (q ≠ p ∧ g.pbufs q = some c) := by
    intro q c found
    rw [same] at found
    by_cases here : q = p
    · rw [here,Function.update_self] at found
      exact Or.inl ⟨here,(Option.some.inj found).symm⟩
    · rw [Function.update_of_ne here] at found
      exact Or.inr ⟨here,found⟩
  have less : ∀ q c, g.pbufs q = some c → c.serial ≠ g.issued := fun q c found => Nat.ne_of_lt (ledger.issued q c found)
  refine ⟨fun q c found => ?_,fun x y c d one two equal => ?_,fun n member => ?_,fun n member => ?_,fun n member => ?_⟩
  · rw [issued]
    rcases old q c found with ⟨_,rfl⟩ | ⟨_,before⟩
    · omega
    · exact Nat.lt_succ_of_lt (ledger.issued q c before)
  · rcases old x c one with ⟨rfl,rfl⟩ | ⟨_,one'⟩ <;> rcases old y d two with ⟨rfl,rfl⟩ | ⟨_,two'⟩
    · rfl
    · exact absurd (equal.symm.trans serial) (less y d two')
    · exact absurd (equal.trans serial) (less x c one')
    · exact ledger.single x y c d one' two' equal
  · rw [issued]
    exact Nat.lt_succ_of_lt (ledger.past n (freed ▸ member))
  · rw [issued]
    rcases clones n member with before | ⟨rfl,_⟩
    · exact Nat.lt_succ_of_lt (ledger.earlier n before)
    · exact Nat.lt_succ_self _
  · unfold Cloned
    rw [freed]
    rcases clones n member with before | ⟨rfl,one,none⟩
    · have apart_p : ∀ q c, g.pbufs q = some c → q ≠ p := by
        rintro q c found rfl
        cases gone.symm.trans found
      rcases ledger.clones n before with ⟨q,c,found,equal,one,other,count⟩ | ⟨none,count⟩
      · have elsewhere := apart_p q c found
        refine Or.inl ⟨q,c,?_,equal,one,(apart q elsewhere).trans other,count⟩
        rw [same,Function.update_of_ne elsewhere]
        exact found
      · refine Or.inr ⟨fun q c found equal => ?_,count⟩
        rcases old q c found with ⟨_,rfl⟩ | ⟨_,found'⟩
        · exact absurd (ledger.earlier n before) (by omega)
        · exact none q c found' equal
    · refine Or.inl ⟨p,b,by rw [same,Function.update_self],serial,one,none,?_⟩
      exact List.count_eq_zero.mpr fun member => absurd (ledger.past _ member) (Nat.lt_irrefl _)

theorem given_back (ledger : Ledger g own) (there : g.pbufs p = some b)
    (same : next.pbufs = Function.update g.pbufs p (GlueState.unref b)) (issued : next.issued = g.issued)
    (clones : next.clones = g.clones) (freed : next.freed = b.serial :: g.freed) : Ledger next own := by
  have old : ∀ q c, next.pbufs q = some c → (q = p ∧ GlueState.unref b = some c) ∨ (q ≠ p ∧ g.pbufs q = some c) := by
    intro q c found
    rw [same] at found
    by_cases here : q = p
    · rw [here,Function.update_self] at found
      exact Or.inl ⟨here,found⟩
    · rw [Function.update_of_ne here] at found
      exact Or.inr ⟨here,found⟩
  have before : ∀ q c, next.pbufs q = some c → ∃ d, g.pbufs q = some d ∧ d.serial = c.serial := by
    intro q c found
    rcases old q c found with ⟨rfl,left⟩ | ⟨_,found'⟩
    · exact ⟨b,there,(unref_serial left).symm⟩
    · exact ⟨c,found',rfl⟩
  refine ⟨fun q c found => ?_,fun x y c d one two equal => ?_,fun n member => ?_,fun n member => ?_,fun n member => ?_⟩
  · obtain ⟨d,found',equal⟩ := before q c found
    rw [issued,←equal]
    exact ledger.issued q d found'
  · obtain ⟨c',one',equal'⟩ := before x c one
    obtain ⟨d',two',equal''⟩ := before y d two
    exact ledger.single x y c' d' one' two' (equal'.trans (equal.trans equal''.symm))
  · rw [issued]
    rw [freed,List.mem_cons] at member
    rcases member with rfl | member
    · exact ledger.issued p b there
    · exact ledger.past n member
  · rw [issued]
    exact ledger.earlier n (clones ▸ member)
  · unfold Cloned
    rw [freed]
    rcases ledger.clones n (clones ▸ member) with ⟨q,c,found,equal,one,other,count⟩ | ⟨gone,count⟩
    · by_cases here : q = p
      · rw [here] at found
        cases Option.some.inj (there.symm.trans found)
        refine Or.inr ⟨fun x d present serial => ?_,by rw [equal,List.count_cons_self,count]⟩
        obtain ⟨d',found',equal'⟩ := before x d present
        have place := ledger.single x p d' b found' there (equal'.trans (serial.trans equal.symm))
        have gone : GlueState.unref b = none := if_pos (by rw [one]; rfl)
        rcases old x d present with ⟨_,left⟩ | ⟨apart,_⟩
        · cases gone.symm.trans left
        · exact apart place
      · have differ : b.serial ≠ n := fun serial => here (ledger.single q p c b found there (equal.trans serial.symm))
        refine Or.inl ⟨q,c,?_,equal,one,other,by rw [List.count_cons_of_ne differ,count]⟩
        rw [same,Function.update_of_ne here]
        exact found
    · refine Or.inr ⟨fun q c found equal => ?_,by rw [List.count_cons_of_ne (gone p b there),count]⟩
      obtain ⟨d,found',equal'⟩ := before q c found
      exact gone q d found' (equal'.trans equal)

end Ledger

namespace Pool
variable {s : Pool} {out out' : List Ptr}

theorem Kept.perm (kept : s.Kept out) (same : out.Perm out') : s.Kept out' := by
  obtain ⟨free,bases,stocked⟩ := kept
  have all := same.append_left free
  exact ⟨free,bases,stocked.chain,all.nodup_iff.mp stocked.apart,fun p => by rw [←all.mem_iff]; exact stocked.live p,
    fun p member => stocked.real p (all.mem_iff.mpr member),fun p member => stocked.constant p (all.mem_iff.mpr member),
    all.symm.trans stocked.blocks⟩

theorem Kept.node {w : Ptr} (kept : s.Kept out) (member : w ∈ out) : s.heap.Node w ∧ Constant (s.heap.pnode w) := by
  obtain ⟨free,bases,stocked⟩ := kept
  have inside : w ∈ free ++ out := List.mem_append_right free member
  exact ⟨⟨stocked.real w inside,(stocked.live w).mpr inside⟩,stocked.constant w inside⟩

theorem Kept.room (kept : s.Kept out) (given : Given) : ∃ base, Given.Fits {given with base} s.heap := by
  obtain ⟨free,bases,stocked⟩ := kept
  obtain ⟨bound,below⟩ : ∃ bound, ∀ p ∈ free ++ out, p < bound := by
    induction free ++ out with
    | nil => exact ⟨0,fun _ member => absurd member List.not_mem_nil⟩
    | cons p rest ih =>
      obtain ⟨bound,below⟩ := ih
      refine ⟨bound + p + 1,fun q member => ?_⟩
      rcases List.mem_cons.mp member with rfl | old
      · exact Nat.lt_succ_of_le (Nat.le_add_left ..)
      · exact Nat.lt_of_lt_of_le (below q old) (Nat.le_add_right bound (p + 1))
  refine ⟨bound + 1,fun i _ => ⟨Nat.ne_of_gt (Nat.lt_of_lt_of_le (Nat.succ_pos bound) (Nat.le_add_right ..)),?_⟩⟩
  have above : bound < place (bound + 1) i := Nat.lt_of_lt_of_le (Nat.lt_succ_self bound) (Nat.le_add_right ..)
  cases live : s.heap.live (place (bound + 1) i) with
  | false => rfl
  | true => exact absurd (below _ ((stocked.live _).mp live)) (Nat.lt_asymm above)

end Pool

namespace Owned

theorem wrapper_node (owned : Owned g own count flights) (handed : f ∈ flights) :
    g.pool.heap.Node f.wrapper ∧ Constant (g.pool.heap.pnode f.wrapper) :=
  owned.pool.node (List.mem_map_of_mem handed)

-- The ways in which glue2esp_linkoutput ends, before the blob has answered. It
-- fails without an interface that is up, or without memory.
theorem glue2esp_cases (owned : Owned g own count flights) (fits : ∀ given, malloc = some given → given.Fits g.pool.heap)
    (num : Fin 2) (p data : Ptr) (size : UInt16) (ticket : Nat) :
    ∃ pool, (∃ err, g.glue2espLinkoutput num p data size malloc = some ({g with pool},.failed err) ∧ err ≠ .ok ∧
        Owned {g with pool} own count flights ∧ (malloc = none ∨ ∀ flags, g.netifEsp num = some flags → flags &&& NETIF_FLAG_LINK_UP = 0)) ∨
      ∃ w, g.glue2espLinkoutput num p data size malloc = some ({g with pool},.waits w) ∧
        Owned {g with pool} own count (⟨ticket,w,p⟩ :: flights) ∧ (pool.heap.pnode w).pbuf.ref = 0 := by
  unfold GlueState.glue2espLinkoutput
  cases netif : g.netifEsp num with
  | none => exact ⟨g.pool,Or.inl ⟨.iface,rfl,by decide,owned,Or.inr (by simp)⟩⟩
  | some flags =>
    dsimp only
    by_cases down : flags &&& NETIF_FLAG_LINK_UP = 0
    · rw [if_pos down]
      exact ⟨g.pool,Or.inl ⟨.iface,rfl,by decide,owned,Or.inr (by simp [down])⟩⟩
    · rw [if_neg down]
      rcases owned.pool.got fits with ⟨short,given⟩ | ⟨pool,w,got,real,new,kept,constant,same⟩
      · rw [short]
        exact ⟨g.pool,Or.inl ⟨.mem,rfl,by decide,owned,Or.inl given⟩⟩
      · have node := (kept.node (List.mem_cons_self ..)).1
        have ready : (pool.heap.pnode w).pbuf.type = PBUF_CUSTOM_TYPE_POOLED ∧ (pool.heap.pnode w).pbuf.flags = 0 ∧
            (pool.heap.pnode w).pbuf.next = null ∧ (pool.heap.pnode w).pbuf.eb = null :=
          ⟨constant.type,constant.flags,constant.next,constant.eb⟩
        have filled := kept.written ((pool.heap.pnode w).fill p data size 0) ⟨constant.type,constant.flags,constant.next,constant.eb⟩ w
        have here : (pool.heap.stored w ((pool.heap.pnode w).fill p data size 0)).pnode w = (pool.heap.pnode w).fill p data size 0 :=
          Function.update_self ..
        refine ⟨{pool with heap := pool.heap.stored w ((pool.heap.pnode w).fill p data size 0)},
          Or.inr ⟨w,?_,⟨filled,fun f member => ?_,⟨owned.balanced.counted,owned.balanced.gone⟩,
            ⟨owned.ledger.issued,owned.ledger.single,owned.ledger.past,owned.ledger.earlier,owned.ledger.clones⟩⟩,
            congrArg (fun a => a.pbuf.ref) here⟩⟩
        · rw [got]
          dsimp only [Option.bind_eq_bind,Option.bind_some]
          rw [if_neg real,node.node]
          dsimp only [Option.bind_some]
          rw [if_pos ready,node.store]
          rfl
        · rcases List.mem_cons.mp member with rfl | old
          · exact congrArg PbufWrapper.ref2save here
          · have inside : f.wrapper ∈ flights.map Flight.wrapper := List.mem_map_of_mem old
            have apart : f.wrapper ≠ w := fun equal => new (equal ▸ inside)
            have still : (pool.heap.stored w ((pool.heap.pnode w).fill p data size 0)).pnode f.wrapper =
                g.pool.heap.pnode f.wrapper := (Function.update_of_ne apart _ _).trans (same _ inside)
            exact (congrArg PbufWrapper.ref2save still).trans (owned.saved f old)

-- What pbuf_free makes of a reference the glue holds, as long as the eight bits
-- tell the last reference from the others.
theorem pbufFree_owned (owned : Owned g own (bump count p) flights) (small : own p + count p ≤ 255) :
    ∃ next, g.pbufFree p = some next ∧ Owned next own count flights ∧ next.pool = g.pool := by
  have one : own p + bump count p p = own p + count p + 1 := by
    rw [bump,Function.update_self]
    rfl
  obtain ⟨b,there⟩ := owned.balanced.there (p := p) (by omega)
  obtain ⟨real,_,ref⟩ := owned.balanced.counted p b there
  rw [one] at ref
  have run : g.pbufFree p = some {g with pbufs := Function.update g.pbufs p (GlueState.unref b),freed := b.serial :: g.freed} := by
    unfold GlueState.pbufFree
    rw [there]
    rfl
  refine ⟨_,run,⟨owned.pool,owned.saved,?_,owned.ledger.given_back there rfl rfl rfl rfl⟩,rfl⟩
  exact owned.balanced.updated (GlueState.unref b) (fun c left => ⟨real,unref_some ref left⟩) (unref_none ref small)
    (fun q apart => ⟨rfl,(Function.update_of_ne apart _ _).symm⟩) rfl

theorem rewritten (owned : Owned g own count flights) (there : g.pbufs p = some b) (holds : 0 < own p) (o : Option GitPbuf)
    {count' : Ptr → Nat} (here : ∀ c, o = some c → c.serial = b.serial ∧ 0 < own' p + count' p ∧ c.ref = UInt8.ofNat (own' p + count' p))
    (left : o = none → own' p + count' p = 0) (apart : ∀ q, q ≠ p → own' q = own q ∧ count' q = count q) :
    Owned {g with pbufs := Function.update g.pbufs p o} own' count' flights :=
  ⟨owned.pool,owned.saved,
    owned.balanced.updated o (fun c same => ⟨(owned.balanced.counted p b there).1,(here c same).2⟩) left apart rfl,
    owned.ledger.updated there holds o (fun c same => (here c same).1) (fun q other => (apart q other).1) rfl rfl rfl rfl⟩

theorem raised (owned : Owned g own count flights) (there : g.pbufs p = some b) (holds : 0 < own p) {count' : Ptr → Nat}
    (one : own' p + count' p = own p + count p + 1) (apart : ∀ q, q ≠ p → own' q = own q ∧ count' q = count q) :
    Owned {g with pbufs := Function.update g.pbufs p (some {b with ref := b.ref + 1})} own' count' flights := by
  refine owned.rewritten there holds _ (fun c same => ?_) (fun none => by cases none) apart
  cases same
  refine ⟨rfl,by omega,?_⟩
  rw [one,UInt8.ofNat_add,←(owned.balanced.counted p b there).2.2]
  rfl

theorem pbufRef_owned (owned : Owned g own count flights) (holds : 0 < own p) :
    ∃ next, g.pbufRef p = some next ∧ Owned next own (bump count p) flights ∧ next.pool = g.pool := by
  obtain ⟨b,there⟩ := owned.balanced.there (p := p) (by omega)
  have one : bump count p p = count p + 1 := Function.update_self ..
  have counted : own p + bump count p p = own p + count p + 1 := by omega
  refine ⟨{g with pbufs := Function.update g.pbufs p (some {b with ref := b.ref + 1})},?_,?_,rfl⟩
  · unfold GlueState.pbufRef
    rw [there]
    rfl
  · exact owned.raised there holds counted fun q apart => ⟨rfl,Function.update_of_ne apart _ _⟩

theorem pbufClone_owned (owned : Owned g own count flights) (b : GitPbuf) (payload : Ptr) (real : q ≠ null)
    (free : g.pbufs q = none) : Owned (g.pbufClone b q payload) own (bump count q) flights := by
  obtain ⟨none,zero⟩ := owned.balanced.fresh free
  have one : bump count q q = count q + 1 := Function.update_self ..
  refine ⟨owned.pool,owned.saved,?_,?_⟩
  · have single : own q + bump count q q = 1 := by omega
    refine owned.balanced.updated (some ⟨null,payload,b.totLen,b.totLen,0,1,g.issued⟩) (fun c same => ?_) (fun none => by cases none)
      (fun q apart => ⟨rfl,Function.update_of_ne apart _ _⟩) rfl
    cases same
    rw [single]
    exact ⟨real,Nat.one_pos,rfl⟩
  · refine owned.ledger.allocated free rfl (fun _ _ => rfl) rfl rfl rfl fun n member => ?_
    exact (List.mem_cons.mp member).elim (fun new => Or.inr ⟨new,rfl,none⟩) Or.inl

theorem handOver_cases (owned : Owned g own (bump count p) flights) (small : own p + count p ≤ 255) (fits : ∀ given, malloc = some given → given.Fits g.pool.heap)
    (num : Fin 2) (ticket : Nat) :
    ∃ next, (∃ err, g.handOver num p malloc = some (next,p,.failed err) ∧ err ≠ .ok ∧ Owned next own count flights) ∨
      ∃ w, g.handOver num p malloc = some (next,p,.waits w) ∧ Owned next own (bump count p) (⟨ticket,w,p⟩ :: flights) := by
  have one : bump count p p = count p + 1 := Function.update_self ..
  obtain ⟨b,there⟩ := owned.balanced.there (p := p) (by omega)
  unfold GlueState.handOver
  rw [there]
  dsimp only [Option.bind_eq_bind,Option.bind_some]
  obtain ⟨pool,⟨err,run,bad,after,_⟩ | ⟨w,run,after,_⟩⟩ := owned.glue2esp_cases fits num p b.payload b.len ticket
  · obtain ⟨next,freed,after,_⟩ := after.pbufFree_owned small
    have failed : glue2gitErr err ≠ .ok := fun ok => bad (glue2gitErr_ok.mp ok)
    refine ⟨next,Or.inl ⟨glue2gitErr err,?_,failed,after⟩⟩
    rw [run]
    dsimp only [Option.bind_some]
    unfold GlueState.answered
    rw [if_pos failed,freed]
    rfl
  · refine ⟨_,Or.inr ⟨w,?_,after⟩⟩
    rw [run]
    rfl

-- A send that fails before it reaches the blob changes nothing of the
-- accounts, and one that reaches it adds one flight.
theorem newLinkoutput_cases (owned : Owned g own count flights) (holds : 0 < own p) (small : own p + count p ≤ 255)
    (new : ∀ q payload, clone = some (q,payload) → q ≠ null ∧ g.pbufs q = none)
    (fits : ∀ given, malloc = some given → given.Fits g.pool.heap) (num : Fin 2) (ticket : Nat) :
    ∃ next q, (∃ err, g.newLinkoutput num p clone malloc = some (next,q,.failed err) ∧ err ≠ .ok ∧ Owned next own count flights) ∨
      ∃ w, g.newLinkoutput num p clone malloc = some (next,q,.waits w) ∧
        Owned next own (bump count q) (⟨ticket,w,q⟩ :: flights) := by
  obtain ⟨b,there⟩ := owned.balanced.there (p := p) (by omega)
  unfold GlueState.newLinkoutput
  rw [there]
  dsimp only [Option.bind_eq_bind,Option.bind_some]
  cases copied : GlueState.copied b with
  | true =>
    rw [if_pos rfl]
    cases clone with
    | none => exact ⟨g,p,Or.inl ⟨.mem,rfl,by decide,owned⟩⟩
    | some place =>
      obtain ⟨q,payload⟩ := place
      obtain ⟨real,free⟩ := new q payload rfl
      have unheld := owned.balanced.gone q free
      obtain ⟨next,cases⟩ := (owned.pbufClone_owned b payload real free).handOver_cases (by omega) fits num ticket
      exact ⟨next,q,cases⟩
  | false =>
    rw [if_neg (by decide)]
    obtain ⟨mid,reffed,after,pool⟩ := owned.pbufRef_owned holds
    obtain ⟨next,cases⟩ := after.handOver_cases small (by rwa [pool] : ∀ given, malloc = some given → given.Fits mid.pool.heap)
      num ticket
    rw [reffed]
    exact ⟨next,p,cases⟩

theorem newLinkoutput_plain (owned : Owned g own count flights) (holds : 0 < own p) (there : g.pbufs p = some b)
    (plain : GlueState.copied b = false) {flags : UInt8} (up : g.netifEsp num = some flags) (link : flags &&& NETIF_FLAG_LINK_UP ≠ 0)
    {given : Given} (fits : given.Fits g.pool.heap) (ticket : Nat) :
    ∃ pool w, g.newLinkoutput num p none (some given) =
        some ({g with pbufs := Function.update g.pbufs p (some {b with ref := b.ref + 1}),pool},p,.waits w) ∧
      Owned {g with pbufs := Function.update g.pbufs p (some {b with ref := b.ref + 1}),pool} own (bump count p)
        (⟨ticket,w,p⟩ :: flights) ∧ (pool.heap.pnode w).pbuf.ref = 0 := by
  have counted : own p + bump count p p = own p + count p + 1 := by
    rw [bump,Function.update_self]
    rfl
  have raised := owned.raised there holds counted fun q apart => ⟨rfl,Function.update_of_ne apart _ _⟩
  have fits' : ∀ given', some given = some given' → given'.Fits g.pool.heap := fun _ same => Option.some.inj same ▸ fits
  obtain ⟨pool,⟨err,_,_,_,none | down⟩ | ⟨w,run,after,ref⟩⟩ := raised.glue2esp_cases fits' num p b.payload b.len ticket
  · cases none
  · exact absurd (down flags up) link
  · refine ⟨pool,w,?_,after,ref⟩
    unfold GlueState.newLinkoutput GlueState.pbufRef
    rw [there]
    dsimp only [Option.bind_eq_bind,Option.bind_some,Option.pure_def]
    rw [plain,if_neg Bool.false_ne_true]
    unfold GlueState.handOver
    dsimp only [Option.bind_eq_bind,Option.bind_some]
    rw [Function.update_self]
    dsimp only [Option.bind_some]
    rw [run]
    rfl

theorem erased (owned : Owned g own count flights) (handed : f ∈ flights) {pool : Pool}
    (kept : pool.Kept ((flights.map Flight.wrapper).erase f.wrapper)) (same : pool.heap.pnode = g.pool.heap.pnode) :
    Owned {g with pool} own count (flights.erase f) := by
  have moved : ((flights.map Flight.wrapper).erase f.wrapper).Perm ((flights.erase f).map Flight.wrapper) := by
    have swapped := ((List.perm_cons_erase handed).map Flight.wrapper).erase f.wrapper
    rwa [List.map_cons,List.erase_cons_head] at swapped
  refine ⟨kept.perm moved,fun other member => ?_,⟨owned.balanced.counted,owned.balanced.gone⟩,
    ⟨owned.ledger.issued,owned.ledger.single,owned.ledger.past,owned.ledger.earlier,owned.ledger.clones⟩⟩
  dsimp only
  rw [same]
  exact owned.saved other (List.mem_of_mem_erase member)

theorem returned_error (owned : Owned g own (bump count f.pbuf) flights) (small : own f.pbuf + count f.pbuf ≤ 255)
    (handed : f ∈ flights) {err : Int} (bad : err ≠ 0) :
    ∃ next answer, g.linkoutputReturned f.wrapper f.pbuf err = some (next,answer) ∧ answer ≠ .ok ∧
      Owned next own count (flights.erase f) := by
  obtain ⟨pool,released,kept,same⟩ := owned.pool.released (List.mem_map_of_mem handed)
  obtain ⟨next,freed,after,_⟩ := (owned.erased handed kept same).pbufFree_owned small
  have failed : glue2gitErr (esp2glueErr err) ≠ .ok := fun ok => bad (esp2glueErr_ok.mp (glue2gitErr_ok.mp ok))
  refine ⟨next,_,?_,failed,after⟩
  unfold GlueState.linkoutputReturned GlueState.answered
  rw [if_pos bad,released]
  dsimp only [Option.bind_eq_bind,Option.bind_some]
  rw [if_pos failed,freed]
  rfl

theorem completed (owned : Owned g own (bump count f.pbuf) flights) (small : own f.pbuf + count f.pbuf ≤ 255) (handed : f ∈ flights)
    (one : (g.pool.heap.pnode f.wrapper).pbuf.ref = 1) :
    ∃ next, g.espPbufFree f.wrapper = some next ∧ Owned next own count (flights.erase f) := by
  obtain ⟨node,constant⟩ := owned.wrapper_node handed
  have saved := owned.saved f handed
  obtain ⟨mid,freed,after,pool⟩ := owned.pbufFree_owned small
  have real : f.pbuf ≠ null := by
    have bumped : bump count f.pbuf f.pbuf = count f.pbuf + 1 := Function.update_self ..
    obtain ⟨b,there⟩ := owned.balanced.there (p := f.pbuf) (by omega)
    exact (owned.balanced.counted _ b there).1
  obtain ⟨back,released,kept,same⟩ := after.pool.released (List.mem_map_of_mem handed)
  refine ⟨_,?_,after.erased handed kept same⟩
  unfold GlueState.espPbufFree
  rw [node.node]
  dsimp only [Option.bind_eq_bind,Option.bind_some]
  rw [saved,if_pos ⟨one,constant.type,constant.eb,real⟩,freed]
  dsimp only [Option.bind_some]
  rw [released]
  rfl

theorem completed_last (owned : Owned g own count flights) (handed : f ∈ flights) (one : (g.pool.heap.pnode f.wrapper).pbuf.ref = 1)
    (there : g.pbufs f.pbuf = some b) (last : b.ref = 1) :
    ∃ next, g.espPbufFree f.wrapper = some next ∧ next.pbufs = Function.update g.pbufs f.pbuf none := by
  obtain ⟨node,constant⟩ := owned.wrapper_node handed
  obtain ⟨pool,released,_⟩ := owned.pool.released (List.mem_map_of_mem handed)
  have gone : GlueState.unref b = none := if_pos (by rw [last]; rfl)
  refine ⟨{g with pbufs := Function.update g.pbufs f.pbuf none,freed := b.serial :: g.freed,pool},?_,rfl⟩
  unfold GlueState.espPbufFree GlueState.pbufFree
  rw [node.node]
  dsimp only [Option.bind_eq_bind,Option.bind_some]
  rw [owned.saved f handed,if_pos ⟨one,constant.type,constant.eb,(owned.balanced.counted _ b there).1⟩,there]
  dsimp only [Option.bind_some,Option.pure_def]
  rw [released,gone]
  rfl

theorem completed_once (owned : Owned g own count flights) (handed : f ∈ flights) (run : g.espPbufFree f.wrapper = some next) :
    (g.pool.heap.pnode f.wrapper).pbuf.ref = 1 := by
  obtain ⟨node,_⟩ := owned.wrapper_node handed
  unfold GlueState.espPbufFree at run
  rw [node.node] at run
  dsimp only [Option.bind_eq_bind,Option.bind_some] at run
  split at run
  · exact (‹_ ∧ _›).1
  · cases run

theorem reffed (owned : Owned g own count flights) (handed : f ∈ flights) :
    ∃ next, g.espPbufRef f.wrapper = some next ∧ Owned next own count flights ∧ next.pbufs = g.pbufs ∧
      (next.pool.heap.pnode f.wrapper).pbuf.ref = (g.pool.heap.pnode f.wrapper).pbuf.ref + 1 := by
  obtain ⟨node,constant⟩ := owned.wrapper_node handed
  generalize written : (⟨{(g.pool.heap.pnode f.wrapper).pbuf with ref := (g.pool.heap.pnode f.wrapper).pbuf.ref + 1},
    (g.pool.heap.pnode f.wrapper).ref2save⟩ : PbufWrapper) = w
  have still : Constant w := by
    rw [←written]
    exact ⟨constant.type,constant.flags,constant.next,constant.eb⟩
  have here : (g.pool.heap.stored f.wrapper w).pnode f.wrapper = w := Function.update_self ..
  refine ⟨{g with pool := {g.pool with heap := g.pool.heap.stored f.wrapper w}},?_,⟨owned.pool.written w still f.wrapper,
    fun other member => ?_,⟨owned.balanced.counted,owned.balanced.gone⟩,
    ⟨owned.ledger.issued,owned.ledger.single,owned.ledger.past,owned.ledger.earlier,owned.ledger.clones⟩⟩,rfl,?_⟩
  · unfold GlueState.espPbufRef
    rw [node.node]
    dsimp only [Option.bind_eq_bind,Option.bind_some]
    rw [written,node.store]
    rfl
  · refine Eq.trans ?_ (owned.saved other member)
    by_cases here : other.wrapper = f.wrapper
    · have same : (g.pool.heap.stored f.wrapper w).pnode other.wrapper = w := here ▸ Function.update_self ..
      rw [same,←written,here]
    · exact congrArg PbufWrapper.ref2save (Function.update_of_ne here _ _)
  · dsimp only
    rw [here,←written]

theorem alloc (owned : Owned g own count flights) (real : p ≠ null) (fresh : g.pbufs p = none) (b : GitPbuf) :
    Owned {g with pbufs := Function.update g.pbufs p (some {b with ref := 1,serial := g.issued}),issued := g.issued + 1}
      (Function.update own p 1) count flights := by
  obtain ⟨none,zero⟩ := owned.balanced.fresh fresh
  have here : Function.update own p 1 p = 1 := Function.update_self ..
  have apart : ∀ q, q ≠ p → Function.update own p 1 q = own q := fun q apart => Function.update_of_ne apart _ _
  refine ⟨owned.pool,owned.saved,?_,?_⟩
  · have single : Function.update own p 1 p + count p = 1 := by omega
    refine owned.balanced.updated (some {b with ref := 1,serial := g.issued}) (fun c same => ?_) (fun none => by cases none)
      (fun q other => ⟨apart q other,rfl⟩) rfl
    cases same
    rw [single]
    exact ⟨real,Nat.one_pos,rfl⟩
  · exact owned.ledger.allocated fresh rfl apart rfl rfl rfl fun n member => Or.inl member

theorem ref (owned : Owned g own count flights) (holds : 0 < own p) (run : g.pbufRef p = some next) :
    Owned next (Function.update own p (own p + 1)) count flights := by
  obtain ⟨b,there⟩ := owned.balanced.there (p := p) (by omega)
  have one : Function.update own p (own p + 1) p = own p + 1 := Function.update_self ..
  have counted : Function.update own p (own p + 1) p + count p = own p + count p + 1 := by omega
  unfold GlueState.pbufRef at run
  rw [there] at run
  cases Option.some.inj run
  exact owned.raised there holds counted fun q apart => ⟨Function.update_of_ne apart _ _,rfl⟩

theorem free (owned : Owned g own count flights) (holds : 0 < own p) (small : own p + count p ≤ 256) (there : g.pbufs p = some b) :
    Owned {g with pbufs := Function.update g.pbufs p (GlueState.unref b)} (Function.update own p (own p - 1)) count flights := by
  have less : Function.update own p (own p - 1) p + count p + 1 = own p + count p := by
    rw [Function.update_self]
    omega
  obtain ⟨_,_,ref⟩ := owned.balanced.counted p b there
  rw [←less] at ref
  exact owned.rewritten there holds (GlueState.unref b) (fun c left => ⟨unref_serial left,unref_some ref left⟩)
    (unref_none ref (by omega)) fun q apart => ⟨Function.update_of_ne apart _ _,rfl⟩

theorem write (owned : Owned g own count flights) (holds : 0 < own p) (there : g.pbufs p = some b) (c : GitPbuf) :
    Owned {g with pbufs := Function.update g.pbufs p (some {c with ref := b.ref,serial := b.serial})} own count flights := by
  refine owned.rewritten there holds (some {c with ref := b.ref,serial := b.serial}) (fun d same => ?_) (fun none => by cases none)
    fun _ _ => ⟨rfl,rfl⟩
  cases same
  exact ⟨rfl,(owned.balanced.counted p b there).2⟩

theorem start {heap : Heap PbufWrapper} (unused : ∀ p, heap.live p = false) (netif : Fin 2 → Option UInt8) :
    Owned ⟨netif,.empty heap,fun _ => none,0,[],[]⟩ (fun _ => 0) (holding []) [] :=
  ⟨Pool.empty_kept unused,fun _ member => absurd member List.not_mem_nil,
    ⟨fun _ _ there => absurd there.symm (Option.some_ne_none _),fun _ _ => rfl⟩,
    ⟨fun _ _ there => absurd there.symm (Option.some_ne_none _),
      fun _ _ _ _ there => absurd there.symm (Option.some_ne_none _),fun _ member => absurd member List.not_mem_nil,
      fun _ member => absurd member List.not_mem_nil,fun _ member => absurd member List.not_mem_nil⟩⟩

end Owned

namespace World

def start (heap : Heap PbufWrapper) (netif : Fin 2 → Option UInt8) : World :=
  ⟨⟨netif,.empty heap,fun _ => none,0,[],[]⟩,fun _ => 0,0,[],[]⟩

-- No pbuf has more references than a u8_t holds.
def Counted (s : World) : Prop := ∀ p, s.own p + holding s.flights p ≤ 255

def Limited (s : World) (event : Event) (next : World) : Prop := Deed s event next ∧ next.Counted

structure InOrder (s : World) : Prop extends Owned s.glue s.own (holding s.flights) s.flights where
  counted : s.Counted

variable {s next one two last : World} {event : Event} {events between : List Event}

-- Taking a flight from those in the air leaves room for a reference more.
theorem InOrder.landing (order : s.InOrder) (handed : f ∈ s.flights) :
    Owned s.glue s.own (bump (holding (s.flights.erase f)) f.pbuf) s.flights ∧
      s.own f.pbuf + holding (s.flights.erase f) f.pbuf ≤ 255 := by
  have owned := order.toOwned
  have counted := order.counted f.pbuf
  have one : bump (holding (s.flights.erase f)) f.pbuf f.pbuf = holding (s.flights.erase f) f.pbuf + 1 := Function.update_self ..
  rw [holding_erase handed] at owned counted
  exact ⟨owned,by omega⟩

theorem deed_owned (order : s.InOrder) (deed : Deed s event next) : Owned next.glue next.own (holding next.flights) next.flights := by
  cases deed with
  | send holds offered run =>
    obtain ⟨glue,q,⟨err,failed,_⟩ | ⟨w,waits,after⟩⟩ :=
      order.newLinkoutput_cases holds (order.counted _) offered.clone offered.malloc _ s.tickets
    · cases Option.some.inj (failed.symm.trans run)
    · cases Option.some.inj (waits.symm.trans run)
      rw [holding_cons]
      exact after
  | refused holds offered run =>
    obtain ⟨glue,q,⟨err,failed,_,after⟩ | ⟨w,waits,_⟩⟩ :=
      order.newLinkoutput_cases holds (order.counted _) offered.clone offered.malloc _ s.tickets
    · cases Option.some.inj (failed.symm.trans run)
      exact after
    · cases Option.some.inj (waits.symm.trans run)
  | returned called kept run =>
    rename_i f err _
    by_cases good : err = 0
    · rw [good] at run
      cases Option.some.inj run
      rw [if_pos good]
      exact order.toOwned
    · obtain ⟨owned,small⟩ := order.landing (kept good)
      obtain ⟨glue,answer,failed,_,after⟩ := owned.returned_error small (kept good) good
      cases Option.some.inj (failed.symm.trans run)
      rw [if_neg good]
      exact after
  | reffed handed run =>
    obtain ⟨glue,reffed,after,_⟩ := order.toOwned.reffed handed
    cases Option.some.inj (reffed.symm.trans run)
    exact after
  | completed handed run =>
    obtain ⟨owned,small⟩ := order.landing handed
    obtain ⟨glue,freed,after⟩ := owned.completed small handed (order.completed_once handed run)
    cases Option.some.inj (freed.symm.trans run)
    exact after
  | alloc real fresh => exact order.toOwned.alloc real fresh _
  | ref holds run => exact order.toOwned.ref holds run
  | free holds there => exact order.toOwned.free holds (Nat.le_succ_of_le (order.counted _)) there
  | write holds there => exact order.toOwned.write holds there _
  | netif =>
    exact ⟨order.pool,order.saved,⟨order.balanced.counted,order.balanced.gone⟩,
      ⟨order.ledger.issued,order.ledger.single,order.ledger.past,order.ledger.earlier,order.ledger.clones⟩⟩

theorem limited_inOrder (order : s.InOrder) (limited : Limited s event next) : next.InOrder :=
  ⟨deed_owned order limited.1,limited.2⟩

theorem runs_inOrder (order : s.InOrder) (path : Runs Limited s events next) : next.InOrder :=
  path.keeps (I := InOrder) order limited_inOrder

structure Accounted (s : World) : Prop where
  references : ∀ p, s.glue.refs p = s.own p + s.flights.countP fun f => (s.glue.pool.heap.pnode f.wrapper).ref2save = p
  inFlight : ∃ free, Chain s.glue.pool.heap s.glue.pool.pbufWrapperHead free ∧ (free ++ s.flights.map Flight.wrapper).Nodup ∧
    ∀ w, s.glue.pool.heap.live w = true ↔ w ∈ free ∨ w ∈ s.flights.map Flight.wrapper
  saved : ∀ f ∈ s.flights, (s.glue.pool.heap.pnode f.wrapper).ref2save = f.pbuf
  clones : ∀ n ∈ s.glue.clones,
    (s.glue.freed.count n = 0 ∧ ∃ f ∈ s.flights, ∃ b, s.glue.pbufs f.pbuf = some b ∧ b.serial = n ∧ b.ref = 1) ∨
    (s.glue.freed.count n = 1 ∧ ∀ f ∈ s.flights, ∀ b, s.glue.pbufs f.pbuf = some b → b.serial ≠ n)
  alive : ∀ f ∈ s.flights, ∃ b, s.glue.pbufs f.pbuf = some b ∧ b.ref ≠ 0

theorem InOrder.there (order : s.InOrder) (handed : f ∈ s.flights) : ∃ b, s.glue.pbufs f.pbuf = some b :=
  order.balanced.there (Nat.add_pos_right _ (holding_positive handed))

theorem InOrder.refs (order : s.InOrder) (p : Ptr) : s.glue.refs p = s.own p + holding s.flights p := order.balanced.refs (order.counted p)

theorem InOrder.accounted (order : s.InOrder) : s.Accounted := by
  obtain ⟨free,bases,stocked⟩ := order.pool
  refine ⟨fun p => ?_,⟨free,stocked.chain,stocked.apart,fun w => by rw [stocked.live,List.mem_append]⟩,order.saved,
    fun n member => ?_,fun f handed => ?_⟩
  · rw [order.refs,holding]
    congr 1
    exact List.countP_congr fun f handed => by rw [order.saved f handed]
  · rcases order.ledger.clones n member with ⟨p,b,there,serial,one,none,count⟩ | ⟨gone,count⟩
    · obtain ⟨_,positive,_⟩ := order.balanced.counted p b there
      rw [none,Nat.zero_add] at positive
      obtain ⟨f,handed,same⟩ := List.countP_pos_iff.mp positive
      have here : f.pbuf = p := by simpa using same
      exact Or.inl ⟨count,f,handed,b,here ▸ there,serial,one⟩
    · exact Or.inr ⟨count,fun f _ b there => gone f.pbuf b there⟩
  · obtain ⟨b,there⟩ := order.there handed
    refine ⟨b,there,fun zero => ?_⟩
    have refs := order.refs f.pbuf
    have positive := holding_positive handed
    rw [GlueState.refs,there,Option.elim_some,zero] at refs
    simp at refs
    omega

theorem refused_unchanged (order : s.InOrder) {num : Fin 2} {p : Ptr} {clone : Option (Ptr × Ptr)} {malloc : Option Given} {err : Err}
    (deed : Deed s (.refused num p clone malloc err) next) :
    err ≠ .ok ∧ next.flights = s.flights ∧ ∀ q, next.glue.refs q = s.glue.refs q := by
  have owned := deed_owned order deed
  cases deed with
  | refused holds offered run =>
    have after : InOrder {s with glue := _} := ⟨owned,order.counted⟩
    obtain ⟨glue,q,⟨err,failed,bad,_⟩ | ⟨w,waits,_⟩⟩ :=
      order.newLinkoutput_cases holds (order.counted _) offered.clone offered.malloc num s.tickets
    · cases Option.some.inj (failed.symm.trans run)
      exact ⟨bad,rfl,fun q => (after.refs q).trans (order.refs q).symm⟩
    · cases Option.some.inj (waits.symm.trans run)

-- Nor is anything left of a send that the blob refuses: the accounts are what
-- the deeds in between make of them.
theorem returned_unchanged (order : s.InOrder) {num : Fin 2} {p : Ptr} {clone : Option (Ptr × Ptr)} {malloc : Option Given}
    {f : Flight} {err : Int} {answer : Err} (sent : Limited s (.send num p clone malloc f) one) (path : Runs Limited one between two)
    (refused : Deed two (.returned f err answer) last) (bad : answer ≠ .ok) :
    one.flights = f :: s.flights ∧ f ∈ two.flights ∧ last.flights = two.flights.erase f ∧
      ∀ q, last.glue.refs q + one.glue.refs q = two.glue.refs q + s.glue.refs q := by
  have first := limited_inOrder order sent
  have second := runs_inOrder first path
  have added : one.flights = f :: s.flights ∧ one.own = s.own := by cases sent.1; exact ⟨rfl,rfl⟩
  have removed : f ∈ two.flights ∧ last.flights = two.flights.erase f ∧ last.own = two.own := by
    cases refused with
    | returned called kept run =>
      by_cases good : err = 0
      · rw [good] at run
        cases Option.some.inj run
        exact absurd rfl bad
      · exact ⟨kept good,if_neg good,rfl⟩
  have third : last.InOrder := by
    refine ⟨deed_owned second refused,fun q => ?_⟩
    rw [removed.2.1,removed.2.2]
    exact Nat.le_trans (Nat.add_le_add_left (List.Sublist.countP_le List.erase_sublist) _) (second.counted q)
  refine ⟨added.1,removed.1,removed.2.1,fun q => ?_⟩
  rw [third.refs,first.refs,second.refs,order.refs,added.1,added.2,removed.2.1,removed.2.2,holding_cons,holding_erase removed.1]
  by_cases here : q = f.pbuf
  · rw [here,bump,bump,Function.update_self,Function.update_self]
    omega
  · rw [bump,bump,Function.update_of_ne here,Function.update_of_ne here]

theorem start_inOrder {heap : Heap PbufWrapper} (unused : ∀ p, heap.live p = false) (netif : Fin 2 → Option UInt8) :
    (start heap netif).InOrder :=
  ⟨Owned.start unused netif,fun _ => Nat.zero_le _⟩

-- Wherever sends, answers and completions have led without a pbuf of more than 255
-- references, those of the glue are the wrappers in flight, and nothing that
-- follows gets stuck.
theorem transmit_accounted {heap : Heap PbufWrapper} {netif : Fin 2 → Option UInt8} (unused : ∀ p, heap.live p = false)
    (path : Runs Limited (start heap netif) events s) :
    s.Accounted ∧
    (∀ num p clone malloc err next, Deed s (.refused num p clone malloc err) next →
      err ≠ .ok ∧ next.flights = s.flights ∧ ∀ q, next.glue.refs q = s.glue.refs q) ∧
    (∀ num p clone malloc f one between two err answer last, Limited s (.send num p clone malloc f) one → Runs Limited one between two →
      Deed two (.returned f err answer) last → answer ≠ .ok →
      one.flights = f :: s.flights ∧ f ∈ two.flights ∧ last.flights = two.flights.erase f ∧
        ∀ q, last.glue.refs q + one.glue.refs q = two.glue.refs q + s.glue.refs q) ∧
    (∀ num p clone malloc, 0 < s.own p → Offered s clone malloc → ∃ result, s.glue.newLinkoutput num p clone malloc = some result) ∧
    ∀ f ∈ s.flights, (∀ err, ∃ result, s.glue.linkoutputReturned f.wrapper f.pbuf err = some result) ∧
      (∃ next, s.glue.espPbufRef f.wrapper = some next) ∧
      ((s.glue.pool.heap.pnode f.wrapper).pbuf.ref = 1 → ∃ next, s.glue.espPbufFree f.wrapper = some next) := by
  have order := runs_inOrder (start_inOrder unused netif) path
  refine ⟨order.accounted,fun _ _ _ _ _ _ deed => refused_unchanged order deed,
    fun _ _ _ _ _ _ _ _ _ _ _ sent path refused bad => returned_unchanged order sent path refused bad,
    fun num p clone malloc holds offered => ?_,fun f handed => ?_⟩
  · obtain ⟨next,q,⟨err,run,_⟩ | ⟨w,run,_⟩⟩ :=
      order.newLinkoutput_cases holds (order.counted p) offered.clone offered.malloc num s.tickets
    · exact ⟨_,run⟩
    · exact ⟨_,run⟩
  · obtain ⟨owned,small⟩ := order.landing handed
    refine ⟨fun err => ?_,?_,fun one => ?_⟩
    · by_cases good : err = 0
      · rw [good]
        exact ⟨_,rfl⟩
      · obtain ⟨next,answer,run,_⟩ := owned.returned_error small handed good
        exact ⟨_,run⟩
    · obtain ⟨next,run,_⟩ := order.toOwned.reffed handed
      exact ⟨next,run⟩
    · obtain ⟨next,run,_⟩ := owned.completed small handed one
      exact ⟨next,run⟩

def linkUp : Fin 2 → Option UInt8 := fun _ => some NETIF_FLAG_LINK_UP
def firstPbuf : GitPbuf := ⟨null,0x300,60,60,0,1,0⟩
def firstHeld : World :=
  ⟨⟨linkUp,.empty unusedHeap,Function.update (fun _ => none) 0x200 (some firstPbuf),1,[],[]⟩,Function.update (fun _ => 0) 0x200 1,0,[],[]⟩

theorem few_counted {s : World} (own : ∀ p, s.own p ≤ 1) (few : s.flights.length ≤ 254) : s.Counted := fun p =>
  Nat.add_le_add (own p) (Nat.le_trans List.countP_le_length few)

theorem firstHeld_own (p : Ptr) : firstHeld.own p ≤ 1 := by
  change Function.update (fun _ => 0) 0x200 1 p ≤ 1
  by_cases here : p = 0x200
  · simp [here]
  · simp [here]

theorem alloc_firstHeld : Deed (start unusedHeap linkUp) (.alloc 0x200 firstPbuf) firstHeld := .alloc (by decide) rfl

-- A pbuf of lwIP that the blob has been handed.
theorem transmit_accounted_once : ∃ s : World, s.Accounted ∧ s.flights.length = 1 ∧ s.own 0x200 = 1 ∧ s.glue.refs 0x200 = 2 := by
  have fits : firstBlock.Fits unusedHeap := fun i _ =>
    ⟨Nat.ne_of_gt (Nat.lt_of_lt_of_le (by decide : 0 < 0x1000) (Nat.le_add_right _ _)),rfl⟩
  obtain ⟨glue,run⟩ : ∃ glue, firstHeld.glue.newLinkoutput 0 0x200 none (some firstBlock) =
      some (glue,0x200,.waits (place 0x1000 7)) := ⟨_,rfl⟩
  have offered : Offered firstHeld none (some firstBlock) :=
    ⟨fun _ _ same => absurd same.symm (Option.some_ne_none _),fun _ same => Option.some.inj same ▸ fits⟩
  have owned : 0 < firstHeld.own 0x200 := by decide
  have sent := Deed.send owned offered run
  have held : Limited (start unusedHeap linkUp) (.alloc 0x200 firstPbuf) firstHeld :=
    ⟨alloc_firstHeld,few_counted firstHeld_own (by decide)⟩
  obtain ⟨accounted,_⟩ := transmit_accounted (fun _ => rfl)
    ((Runs.single held).step ⟨sent,few_counted firstHeld_own (by decide : 1 ≤ 254)⟩)
  refine ⟨_,accounted,rfl,rfl,?_⟩
  have saved := accounted.saved _ (List.mem_cons_self ..)
  rw [accounted.references,List.countP_cons_of_pos (by simpa using saved)]
  rfl

structure Resent (s : World) (n : Nat) : Prop where
  owned : Owned s.glue s.own (holding s.flights) s.flights
  own : s.own = Function.update (fun _ => 0) 0x200 1
  netif : s.glue.netifEsp = linkUp
  length : s.flights.length = n
  pbuf : ∀ f ∈ s.flights, f.pbuf = 0x200
  plain : ∃ b, s.glue.pbufs 0x200 = some b ∧ GlueState.copied b = false

theorem Resent.again {n : Nat} (resent : Resent s n) :
    ∃ event f, ∃ next : World, Deed s event next ∧ Resent next (n + 1) ∧ f ∈ next.flights ∧ (next.glue.pool.heap.pnode f.wrapper).pbuf.ref = 0 := by
  obtain ⟨b,there,plain⟩ := resent.plain
  obtain ⟨base,fits⟩ := resent.owned.pool.room firstBlock
  have holds : 0 < s.own 0x200 := by
    rw [resent.own]
    decide
  have up : s.glue.netifEsp 0 = some NETIF_FLAG_LINK_UP := by
    rw [resent.netif]
    rfl
  obtain ⟨pool,w,run,owned,ref⟩ := resent.owned.newLinkoutput_plain holds there plain up (by decide) fits s.tickets
  have offered : Offered s none (some {firstBlock with base}) :=
    ⟨fun _ _ same => absurd same.symm (Option.some_ne_none _),fun _ same => Option.some.inj same ▸ fits⟩
  refine ⟨_,⟨s.tickets,w,0x200⟩,_,.send holds offered run,⟨?_,resent.own,resent.netif,congrArg (· + 1) resent.length,?_,?_⟩,
    List.mem_cons_self ..,ref⟩
  · rw [holding_cons]
    exact owned
  · intro f member
    rcases List.mem_cons.mp member with rfl | old
    · rfl
    · exact resent.pbuf f old
  · exact ⟨{b with ref := b.ref + 1},Function.update_self (0x200 : Ptr) (some {b with ref := b.ref + 1}) s.glue.pbufs,plain⟩

theorem resent (n : Nat) : ∃ events s, Runs Deed (start unusedHeap linkUp) events s ∧ Resent s n := by
  induction n with
  | zero =>
    have held : Limited (start unusedHeap linkUp) (.alloc 0x200 firstPbuf) firstHeld :=
      ⟨alloc_firstHeld,few_counted firstHeld_own (by decide)⟩
    have order := limited_inOrder (start_inOrder (fun _ => rfl) linkUp) held
    exact ⟨_,firstHeld,Runs.single alloc_firstHeld,order.toOwned,rfl,rfl,rfl,fun _ member => absurd member List.not_mem_nil,firstPbuf,rfl,rfl⟩
  | succ n ih =>
    obtain ⟨events,s,path,resent⟩ := ih
    obtain ⟨event,_,next,deed,again,_⟩ := resent.again
    exact ⟨_,next,path.step deed,again⟩

theorem Resent.ref {n : Nat} (resent : Resent s n) {b : GitPbuf} (there : s.glue.pbufs 0x200 = some b) : b.ref = UInt8.ofNat (1 + n) := by
  have all : holding s.flights 0x200 = n := by
    rw [holding,←resent.length]
    exact List.countP_eq_length.mpr fun f member => by simp [resent.pbuf f member]
  have counted := (resent.owned.balanced.counted _ b there).2.2
  rw [all,resent.own] at counted
  exact counted

-- Sent 256 times before the first completion, a pbuf is freed by that completion.
theorem transmit_unaccounted : ∃ events s, Runs Deed (start unusedHeap linkUp) events s ∧ ¬ s.Accounted ∧
    s.own 0x200 = 1 ∧ s.flights.length = 255 ∧ ∀ f ∈ s.flights, f.pbuf = 0x200 ∧ s.glue.pbufs f.pbuf = none := by
  obtain ⟨events,s,path,resent⟩ := resent 255
  obtain ⟨event,f,two,sent,again,handed,zero⟩ := resent.again
  obtain ⟨b,there,_⟩ := again.plain
  have here := again.pbuf f handed
  obtain ⟨three,reffed,owned,pbufs,ref⟩ := again.owned.reffed handed
  rw [zero] at ref
  have there' : three.pbufs f.pbuf = some b := by rw [pbufs,here,there]
  obtain ⟨four,freed,gone⟩ := owned.completed_last handed ref there' (again.ref there)
  have length : (two.flights.erase f).length = 255 := by
    rw [List.length_erase_of_mem handed,again.length]
  have lost : ∀ g ∈ two.flights.erase f, g.pbuf = 0x200 ∧ four.pbufs g.pbuf = none := by
    intro g member
    have same := again.pbuf g (List.mem_of_mem_erase member)
    rw [gone,same,here,Function.update_self]
    exact ⟨rfl,rfl⟩
  refine ⟨_,⟨four,two.own,two.tickets,two.flights.erase f,two.calls⟩,
    ((path.step sent).step (.reffed handed reffed)).step (.completed handed freed),?_,?_,length,lost⟩
  · intro accounted
    obtain ⟨g,member⟩ := List.exists_mem_of_length_pos (Nat.lt_of_lt_of_eq (by decide) length.symm)
    obtain ⟨c,alive,_⟩ := accounted.alive g member
    cases (lost g member).2.symm.trans alive
  · rw [again.own]
    rfl

end World

end NonosLinkLayer.Glue
