import NonosLinkLayer.Base.HeapList
import NonosLinkLayer.Base.Transitions

namespace NonosLinkLayer.Glue
open LinkPool HeapList Transitions

def PBUF_CUSTOM_TYPE_POOLED : UInt8 := 0x42
def PBUF_WRAPPER_BLOCK : Nat := 8

structure Pbuf where
  next : Ptr
  payload : Ptr
  totLen : UInt16
  len : UInt16
  type : UInt8
  flags : UInt8
  ref : UInt16
  eb : Ptr

-- The chain of unused wrappers runs through the links of the heap.
structure PbufWrapper where
  pbuf : Pbuf
  ref2save : Ptr

def sizeofPbufWrapper : Nat := 28

structure Pool where
  heap : Heap PbufWrapper
  pbufWrapperHead : Ptr

structure Given where
  base : Ptr
  junk : Nat → PbufWrapper
  links : Nat → Ptr

def place (base : Ptr) (i : Nat) : Ptr := base + i * sizeofPbufWrapper

def pvPortMalloc (heap : Heap PbufWrapper) (given : Given) : Nat → Heap PbufWrapper
  | 0 => heap
  | n+1 => ((pvPortMalloc heap given n).alloc (place given.base n) (given.junk n)).linked (place given.base n) (given.links n)

def constants (w : PbufWrapper) : PbufWrapper :=
  {w with pbuf := {w.pbuf with type := PBUF_CUSTOM_TYPE_POOLED,flags := 0,next := null,eb := null}}

def initLoop : Nat → Nat → Heap PbufWrapper → Ptr → Option (Heap PbufWrapper × Ptr)
  | 0,_,heap,p => some (heap,p)
  | turns+1,i,heap,p => do
    let w ← heap.node p
    let heap ← heap.store p (constants w)
    let heap ← heap.link p (if i ≠ 0 then p - sizeofPbufWrapper else null)
    initLoop turns (i + 1) heap (p + sizeofPbufWrapper)

namespace Pool

def taken (s : Pool) : Option (Pool × Ptr) := do
  let head ← s.heap.next s.pbufWrapperHead
  pure ({s with pbufWrapperHead := head},s.pbufWrapperHead)

-- `malloc` is the answer to the allocation, should it come to one.
def pbufWrapperGet (malloc : Option Given) (s : Pool) : Option (Pool × Ptr) :=
  if s.pbufWrapperHead = null then
    match malloc with
    | none => some (s,null)
    | some given => do
      let (heap,p) ← initLoop PBUF_WRAPPER_BLOCK 0 (pvPortMalloc s.heap given PBUF_WRAPPER_BLOCK) given.base
      taken ⟨heap,p - sizeofPbufWrapper⟩
  else s.taken

def pbufWrapperRelease (p : Ptr) (s : Pool) : Option Pool := do
  let heap ← s.heap.link p s.pbufWrapperHead
  pure ⟨heap,p⟩

def empty (heap : Heap PbufWrapper) : Pool := ⟨heap,null⟩

end Pool

structure Constant (w : PbufWrapper) : Prop where
  type : w.pbuf.type = PBUF_CUSTOM_TYPE_POOLED
  flags : w.pbuf.flags = 0
  next : w.pbuf.next = null
  eb : w.pbuf.eb = null

def Given.Fits (given : Given) (heap : Heap PbufWrapper) : Prop := ∀ i < PBUF_WRAPPER_BLOCK, heap.Fresh (place given.base i)

def cellsOf (base : Ptr) : Nat → List Ptr
  | 0 => []
  | n+1 => place base n :: cellsOf base n

variable {heap next : Heap PbufWrapper} {base p : Ptr} {given : Given} {i j n turns : Nat}

theorem place_injective (same : place base i = place base j) : i = j := by
  have apart : i * sizeofPbufWrapper = j * sizeofPbufWrapper := Nat.add_left_cancel same
  exact Nat.eq_of_mul_eq_mul_right (by decide) apart

theorem mem_cellsOf : p ∈ cellsOf base n ↔ ∃ i < n, p = place base i := by
  induction n with
  | zero => simp [cellsOf]
  | succ n ih =>
    rw [cellsOf,List.mem_cons,ih]
    constructor
    · rintro (rfl | ⟨i,less,rfl⟩)
      · exact ⟨n,Nat.lt_succ_self n,rfl⟩
      · exact ⟨i,Nat.lt_succ_of_lt less,rfl⟩
    · intro ⟨i,less,same⟩
      by_cases last : i = n
      · exact Or.inl (last ▸ same)
      · exact Or.inr ⟨i,by omega,same⟩

theorem place_foreign : place base n ∉ cellsOf base n := by
  intro member
  obtain ⟨i,less,same⟩ := mem_cellsOf.mp member
  exact absurd (place_injective same) (by omega)

theorem cellsOf_nodup (base : Ptr) (n : Nat) : (cellsOf base n).Nodup := by
  induction n with
  | zero => exact List.nodup_nil
  | succ n ih => exact List.nodup_cons.mpr ⟨place_foreign,ih⟩

theorem length_cellsOf (base : Ptr) (n : Nat) : (cellsOf base n).length = n := by
  induction n with
  | zero => rfl
  | succ n ih => rw [cellsOf,List.length_cons,ih]

structure Grown (heap next : Heap PbufWrapper) (base : Ptr) (n : Nat) : Prop where
  live : ∀ p, next.live p = true ↔ heap.live p = true ∨ p ∈ cellsOf base n
  pnode : ∀ p, p ∉ cellsOf base n → next.pnode p = heap.pnode p
  pnext : ∀ p, p ∉ cellsOf base n → next.pnext p = heap.pnext p

theorem pvPortMalloc_grown (heap : Heap PbufWrapper) (given : Given) (n : Nat) :
    Grown heap (pvPortMalloc heap given n) given.base n := by
  induction n with
  | zero => exact ⟨fun p => by simp [pvPortMalloc,cellsOf],fun _ _ => rfl,fun _ _ => rfl⟩
  | succ n ih =>
    refine ⟨fun p => ?_,fun p foreign => ?_,fun p foreign => ?_⟩
    · rw [pvPortMalloc,Heap.linked_live,cellsOf,List.mem_cons,←or_left_comm,←ih.live]
      unfold Heap.alloc
      dsimp only
      by_cases here : p = place given.base n
      · simp [here]
      · simp [here]
    · rw [cellsOf,List.mem_cons,not_or] at foreign
      rw [pvPortMalloc,Heap.linked_pnode,←ih.pnode p foreign.2]
      exact Function.update_of_ne foreign.1 _ _
    · rw [cellsOf,List.mem_cons,not_or] at foreign
      rw [←ih.pnext p foreign.2]
      exact (Function.update_of_ne foreign.1 _ _).trans (Function.update_of_ne foreign.1 _ _)

structure Threaded (start heap : Heap PbufWrapper) (base : Ptr) (n : Nat) : Prop where
  chain : Chain heap (if n ≠ 0 then place base n - sizeofPbufWrapper else null) (cellsOf base n)
  live : heap.live = start.live
  constant : ∀ p ∈ cellsOf base n, Constant (heap.pnode p)
  pnode : ∀ p, p ∉ cellsOf base n → heap.pnode p = start.pnode p
  pnext : ∀ p, p ∉ cellsOf base n → heap.pnext p = start.pnext p

theorem place_succ (base : Ptr) (i : Nat) : place base (i + 1) = place base i + sizeofPbufWrapper := by
  rw [place,Nat.succ_mul,←Nat.add_assoc]
  rfl

theorem constants_constant (w : PbufWrapper) : Constant (constants w) := ⟨rfl,rfl,rfl,rfl⟩

theorem Threaded.turn {start : Heap PbufWrapper} (threaded : Threaded start heap base n) (node : heap.Node (place base n)) :
    Threaded start ((heap.stored (place base n) (constants (heap.pnode (place base n)))).linked (place base n)
      (if n ≠ 0 then place base n - sizeofPbufWrapper else null)) base (n + 1) := by
  have back : place base (n + 1) - sizeofPbufWrapper = place base n := by
    rw [place_succ]
    exact Nat.add_sub_cancel _ _
  refine ⟨?_,threaded.live,fun p member => ?_,fun p foreign => ?_,fun p foreign => ?_⟩
  · rw [if_pos (Nat.succ_ne_zero n),back]
    exact (threaded.chain.stored _ _).push node place_foreign
  · rw [Heap.linked_pnode]
    by_cases here : p = place base n
    · have written : (heap.stored (place base n) (constants (heap.pnode (place base n)))).pnode p = constants (heap.pnode (place base n)) := by
        rw [here]
        exact Function.update_self ..
      rw [written]
      exact constants_constant _
    · have old : p ∈ cellsOf base n := (List.mem_cons.mp member).resolve_left here
      have still : (heap.stored (place base n) (constants (heap.pnode (place base n)))).pnode p = heap.pnode p :=
        Function.update_of_ne here _ _
      rw [still]
      exact threaded.constant p old
  · rw [cellsOf,List.mem_cons,not_or] at foreign
    exact (Function.update_of_ne foreign.1 _ heap.pnode).trans (threaded.pnode p foreign.2)
  · rw [cellsOf,List.mem_cons,not_or] at foreign
    exact (Function.update_of_ne foreign.1 _ heap.pnext).trans (threaded.pnext p foreign.2)

theorem initLoop_threaded {start : Heap PbufWrapper} (threaded : Threaded start heap base n)
    (nodes : ∀ p ∈ cellsOf base (n + turns), start.Node p) :
    ∃ next, initLoop turns n heap (place base n) = some (next,place base (n + turns)) ∧ Threaded start next base (n + turns) := by
  induction turns generalizing n heap with
  | zero => exact ⟨heap,rfl,threaded⟩
  | succ turns ih =>
    have member : place base n ∈ cellsOf base (n + (turns + 1)) := mem_cellsOf.mpr ⟨n,by omega,rfl⟩
    have node : heap.Node (place base n) := ⟨(nodes _ member).1,by rw [threaded.live]; exact (nodes _ member).2⟩
    have further : n + 1 + turns = n + (turns + 1) := by omega
    obtain ⟨next,loop,done⟩ := ih (threaded.turn node) (by rwa [further])
    rw [place_succ,further] at loop
    rw [further] at done
    refine ⟨next,?_,done⟩
    rw [initLoop,node.node]
    dsimp only [Option.bind_eq_bind,Option.bind_some]
    rw [node.store]
    dsimp only [Option.bind_some]
    have still : (heap.stored (place base n) (constants (heap.pnode (place base n)))).Node (place base n) := node
    rw [still.link]
    exact loop

namespace Pool
variable {s next : Pool} {w : Ptr} {out free : List Ptr} {bases : List Ptr} {malloc : Option Given}

-- The free wrappers hang together in a chain, and with those in flight they
-- are all the wrappers there are, whole blocks of them.
structure Stocked (s : Pool) (out free bases : List Ptr) : Prop where
  chain : Chain s.heap s.pbufWrapperHead free
  apart : (free ++ out).Nodup
  live : ∀ p, s.heap.live p = true ↔ p ∈ free ++ out
  real : ∀ p ∈ free ++ out, p ≠ null
  constant : ∀ p ∈ free ++ out, Constant (s.heap.pnode p)
  blocks : (free ++ out).Perm (bases.flatMap fun base => cellsOf base PBUF_WRAPPER_BLOCK)

def Kept (s : Pool) (out : List Ptr) : Prop := ∃ free bases, s.Stocked out free bases

theorem Stocked.taken (stocked : s.Stocked out (w :: free) bases) :
    s.taken = some ({s with pbufWrapperHead := s.heap.pnext w},w) ∧
      Stocked {s with pbufWrapperHead := s.heap.pnext w} (w :: out) free bases := by
  have node := stocked.chain.node (List.mem_cons_self ..)
  have head : s.pbufWrapperHead = w := stocked.chain.start
  have moved : (w :: free ++ out).Perm (free ++ w :: out) := List.perm_middle.symm
  refine ⟨?_,stocked.chain.tail,moved.nodup_iff.mp stocked.apart,fun p => ?_,fun p member => ?_,fun p member => ?_,
    moved.symm.trans stocked.blocks⟩
  · rw [Pool.taken,head,node.next]
    rfl
  · rw [←moved.mem_iff]
    exact stocked.live p
  · exact stocked.real p (moved.mem_iff.mpr member)
  · exact stocked.constant p (moved.mem_iff.mpr member)

theorem Stocked.extended (stocked : s.Stocked out [] bases) (fits : given.Fits s.heap) :
    ∃ heap p, initLoop PBUF_WRAPPER_BLOCK 0 (pvPortMalloc s.heap given PBUF_WRAPPER_BLOCK) given.base = some (heap,p) ∧
      Stocked ⟨heap,p - sizeofPbufWrapper⟩ out (cellsOf given.base PBUF_WRAPPER_BLOCK) (given.base :: bases) ∧
      ∀ c ∈ out, heap.pnode c = s.heap.pnode c := by
  have grown := pvPortMalloc_grown s.heap given PBUF_WRAPPER_BLOCK
  have fresh : ∀ p ∈ cellsOf given.base PBUF_WRAPPER_BLOCK, s.heap.Fresh p := by
    intro p member
    obtain ⟨i,less,rfl⟩ := mem_cellsOf.mp member
    exact fits i less
  have start : Threaded (pvPortMalloc s.heap given PBUF_WRAPPER_BLOCK) (pvPortMalloc s.heap given PBUF_WRAPPER_BLOCK) given.base 0 :=
    ⟨Chain.empty _,rfl,fun _ member => absurd member List.not_mem_nil,fun _ _ => rfl,fun _ _ => rfl⟩
  have nodes : ∀ p ∈ cellsOf given.base (0 + PBUF_WRAPPER_BLOCK), (pvPortMalloc s.heap given PBUF_WRAPPER_BLOCK).Node p := by
    intro p member
    rw [Nat.zero_add] at member
    exact ⟨(fresh p member).1,(grown.live p).mpr (Or.inr member)⟩
  have first : place given.base 0 = given.base := by rw [place,Nat.zero_mul,Nat.add_zero]
  obtain ⟨heap,loop,threaded⟩ := initLoop_threaded start nodes
  rw [first,Nat.zero_add] at loop
  rw [Nat.zero_add] at threaded
  have foreign : ∀ c ∈ out, c ∉ cellsOf given.base PBUF_WRAPPER_BLOCK := by
    intro c member inside
    have live := (stocked.live c).mpr member
    rw [(fresh c inside).2] at live
    cases live
  have kept : ∀ c ∈ out, heap.pnode c = s.heap.pnode c := fun c member =>
    (threaded.pnode c (foreign c member)).trans (grown.pnode c (foreign c member))
  refine ⟨heap,_,loop,⟨threaded.chain,?_,fun p => ?_,fun p member => ?_,fun p member => ?_,?_⟩,kept⟩
  · exact List.nodup_append.mpr ⟨cellsOf_nodup ..,stocked.apart,fun p inside c member same => foreign c member (same ▸ inside)⟩
  · rw [threaded.live,grown.live,stocked.live,List.nil_append,List.mem_append,or_comm]
  · exact (List.mem_append.mp member).elim (fun inside => (fresh p inside).1) (stocked.real p)
  · refine (List.mem_append.mp member).elim (threaded.constant p) fun old => ?_
    rw [kept p old]
    exact stocked.constant p old
  · rw [List.flatMap_cons]
    exact stocked.blocks.append_left _

theorem Kept.got (kept : s.Kept out) (fits : ∀ given, malloc = some given → given.Fits s.heap) :
    (pbufWrapperGet malloc s = some (s,null) ∧ malloc = none) ∨
      ∃ next w, pbufWrapperGet malloc s = some (next,w) ∧ w ≠ null ∧ w ∉ out ∧ next.Kept (w :: out) ∧
        Constant (next.heap.pnode w) ∧ ∀ c ∈ out, next.heap.pnode c = s.heap.pnode c := by
  obtain ⟨free,bases,stocked⟩ := kept
  have given_out : ∀ {t : Pool} {c bases rest}, t.Stocked out (c :: rest) bases → (∀ c ∈ out, t.heap.pnode c = s.heap.pnode c) →
      ∃ next w, t.taken = some (next,w) ∧ w ≠ null ∧ w ∉ out ∧ next.Kept (w :: out) ∧
        Constant (next.heap.pnode w) ∧ ∀ c ∈ out, next.heap.pnode c = s.heap.pnode c := by
    intro t c bases rest stocked same
    obtain ⟨took,after⟩ := stocked.taken
    have front : c ∈ rest ++ c :: out := List.mem_append_right _ (List.mem_cons_self ..)
    exact ⟨_,c,took,after.real c front,(List.nodup_cons.mp (List.nodup_append.mp after.apart).2.1).1,⟨rest,bases,after⟩,
      after.constant c front,same⟩
  cases free with
  | nil =>
    have head : s.pbufWrapperHead = null := stocked.chain.start
    cases malloc with
    | none => exact Or.inl ⟨if_pos head,rfl⟩
    | some given =>
      obtain ⟨heap,p,loop,extended,same⟩ := stocked.extended (fits given rfl)
      obtain ⟨next,w,took,after⟩ := given_out extended same
      refine Or.inr ⟨next,w,?_,after⟩
      unfold pbufWrapperGet
      rw [if_pos head]
      dsimp only
      rw [loop]
      exact took
  | cons c rest =>
    have head : s.pbufWrapperHead ≠ null := by
      rw [stocked.chain.start]
      exact stocked.real c (List.mem_cons_self ..)
    obtain ⟨next,w,took,after⟩ := given_out stocked fun _ _ => rfl
    exact Or.inr ⟨next,w,(if_neg head).trans took,after⟩

theorem Kept.released (kept : s.Kept out) (member : w ∈ out) :
    ∃ next, pbufWrapperRelease w s = some next ∧ next.Kept (out.erase w) ∧ next.heap.pnode = s.heap.pnode := by
  obtain ⟨free,bases,stocked⟩ := kept
  have back : (free ++ out).Perm (w :: free ++ out.erase w) :=
    ((List.perm_cons_erase member).append_left free).trans List.perm_middle
  have inside : w ∈ free ++ out := List.mem_append_right _ member
  have node : s.heap.Node w := ⟨stocked.real w inside,(stocked.live w).mpr inside⟩
  have foreign : w ∉ free := fun held => (List.nodup_append.mp stocked.apart).2.2 w held w member rfl
  refine ⟨⟨s.heap.linked w s.pbufWrapperHead,w⟩,?_,
    ⟨w :: free,bases,stocked.chain.push node foreign,back.nodup_iff.mp stocked.apart,fun p => ?_,fun p held => ?_,fun p held => ?_,
      back.symm.trans stocked.blocks⟩,rfl⟩
  · unfold pbufWrapperRelease
    rw [node.link]
    rfl
  · rw [←back.mem_iff]
    exact stocked.live p
  · exact stocked.real p (back.mem_iff.mpr held)
  · exact stocked.constant p (back.mem_iff.mpr held)

theorem Kept.written (kept : s.Kept out) (a : PbufWrapper) (constant : Constant a) (p : Ptr) :
    Kept {s with heap := s.heap.stored p a} out := by
  obtain ⟨free,bases,stocked⟩ := kept
  refine ⟨free,bases,stocked.chain.stored p a,stocked.apart,stocked.live,stocked.real,fun c member => ?_,stocked.blocks⟩
  by_cases here : c = p
  · have same : (s.heap.stored p a).pnode c = a := here ▸ Function.update_self ..
    rw [same]
    exact constant
  · have same : (s.heap.stored p a).pnode c = s.heap.pnode c := Function.update_of_ne here _ _
    rw [same]
    exact stocked.constant c member

theorem empty_kept {heap : Heap PbufWrapper} (unused : ∀ p, heap.live p = false) : (empty heap).Kept [] :=
  ⟨[],[],Chain.empty heap,List.nodup_nil,fun p => by simp [empty,unused],fun _ member => absurd member List.not_mem_nil,
    fun _ member => absurd member List.not_mem_nil,List.Perm.refl _⟩

end Pool

structure Holders where
  pool : Pool
  out : List Ptr

inductive Request where
  | get (malloc : Option Given) (answer : Ptr)
  | fill (w ref2save payload : Ptr) (len : UInt16) (ref : UInt16)
  | release (w : Ptr)

def PbufWrapper.fill (w : PbufWrapper) (ref2save payload : Ptr) (len ref : UInt16) : PbufWrapper :=
  {w with pbuf := {w.pbuf with payload,len,totLen := len,ref},ref2save}

inductive Step : Holders → Request → Holders → Prop where
  | get {s : Holders} {next : Pool} {w : Ptr} {malloc : Option Given}
      (fits : ∀ given, malloc = some given → given.Fits s.pool.heap) (get : s.pool.pbufWrapperGet malloc = some (next,w)) :
      Step s (.get malloc w) ⟨next,if w = null then s.out else w :: s.out⟩
  | fill {s : Holders} {w ref2save payload : Ptr} {len ref : UInt16} (held : w ∈ s.out) :
      Step s (.fill w ref2save payload len ref)
        ⟨{s.pool with heap := s.pool.heap.stored w ((s.pool.heap.pnode w).fill ref2save payload len ref)},s.out⟩
  | release {s : Holders} {next : Pool} {w : Ptr} (held : w ∈ s.out) (release : s.pool.pbufWrapperRelease w = some next) :
      Step s (.release w) ⟨next,s.out.erase w⟩

theorem step_kept {s next : Holders} {request : Request} (kept : s.pool.Kept s.out) (step : Step s request next) :
    next.pool.Kept next.out := by
  cases step with
  | get fits get =>
    rcases kept.got fits with ⟨short,_⟩ | ⟨pool,w,got,there,_,after,_⟩
    · cases Option.some.inj (short.symm.trans get)
      exact kept
    · cases Option.some.inj (got.symm.trans get)
      dsimp only
      rwa [if_neg there]
  | fill held =>
    obtain ⟨free,bases,stocked⟩ := kept
    obtain ⟨type,flags,last,eb⟩ := stocked.constant _ (List.mem_append_right free held)
    exact Pool.Kept.written ⟨free,bases,stocked⟩ (PbufWrapper.fill _ _ _ _ _) ⟨type,flags,last,eb⟩ _
  | release held release =>
    obtain ⟨pool,released,after,_⟩ := kept.released held
    cases Option.some.inj (released.symm.trans release)
    exact after

theorem length_blocks (bases : List Ptr) (n : Nat) : (bases.flatMap fun base => cellsOf base n).length = n * bases.length := by
  induction bases with
  | nil => rfl
  | cons base rest ih =>
    rw [List.flatMap_cons,List.length_append,ih,length_cellsOf,List.length_cons,Nat.mul_succ,Nat.add_comm]

-- Whatever is asked of the pool, each wrapper ever allocated is free or with
-- one holder, and the next one given out is one of the former.
theorem wrappers_accounted {heap : Heap PbufWrapper} {requests : List Request} {s : Holders}
    (unused : ∀ p, heap.live p = false) (path : Runs Step ⟨.empty heap,[]⟩ requests s) :
    (∃ free bases : List Ptr, Chain s.pool.heap s.pool.pbufWrapperHead free ∧ free.Nodup ∧ s.out.Nodup ∧ (∀ w ∈ free, w ∉ s.out) ∧
      (∀ p, s.pool.heap.live p = true ↔ p ∈ free ∨ p ∈ s.out) ∧
      (free ++ s.out).Perm (bases.flatMap fun base => cellsOf base PBUF_WRAPPER_BLOCK) ∧
      free.length + s.out.length = PBUF_WRAPPER_BLOCK * bases.length) ∧
    (∀ malloc, (∀ given, malloc = some given → given.Fits s.pool.heap) →
      ∃ next w, s.pool.pbufWrapperGet malloc = some (next,w) ∧ w ∉ s.out ∧ (w = null → malloc = none ∧ next = s.pool) ∧
        (w ≠ null → Constant (next.heap.pnode w))) ∧
    ∀ w ∈ s.out, ∃ next, s.pool.pbufWrapperRelease w = some next := by
  have kept : s.pool.Kept s.out := path.keeps (I := fun s => s.pool.Kept s.out) (Pool.empty_kept unused) step_kept
  obtain ⟨free,bases,stocked⟩ := kept
  obtain ⟨alone,held,apart⟩ := List.nodup_append.mp stocked.apart
  have count := stocked.blocks.length_eq
  rw [List.length_append,length_blocks] at count
  refine ⟨⟨free,bases,stocked.chain,alone,held,fun w inside member => apart w inside w member rfl,fun p => ?_,stocked.blocks,count⟩,
    fun malloc fits => ?_,fun w member => ?_⟩
  · rw [stocked.live,List.mem_append]
  · rcases Pool.Kept.got ⟨free,bases,stocked⟩ fits with ⟨short,failed⟩ | ⟨next,w,got,there,new,_,constant,_⟩
    · refine ⟨s.pool,null,short,fun member => ?_,fun _ => ⟨failed,rfl⟩,fun there => absurd rfl there⟩
      exact stocked.real null (List.mem_append_right _ member) rfl
    · exact ⟨next,w,got,new,fun gone => absurd gone there,fun _ => constant⟩
  · obtain ⟨next,released,_⟩ := Pool.Kept.released ⟨free,bases,stocked⟩ member
    exact ⟨next,released⟩

def junkPbuf : Pbuf := ⟨null,null,0,0,0xff,0xff,0,null⟩
def unusedHeap : Heap PbufWrapper := ⟨fun _ => null,fun _ => ⟨junkPbuf,null⟩,fun _ => false⟩
def firstBlock : Given := ⟨0x1000,fun _ => ⟨junkPbuf,null⟩,fun _ => null⟩

-- One wrapper taken from a first block.
theorem wrappers_accounted_once : ∃ s : Holders, s.out = [place 0x1000 7] ∧
    ∃ free bases : List Ptr, Chain s.pool.heap s.pool.pbufWrapperHead free ∧ free.length + 1 = PBUF_WRAPPER_BLOCK * bases.length := by
  have fits : firstBlock.Fits unusedHeap := by
    intro i _
    refine ⟨?_,rfl⟩
    exact Nat.ne_of_gt (Nat.lt_of_lt_of_le (by decide : 0 < 0x1000) (Nat.le_add_right _ _))
  obtain ⟨pool,got⟩ : ∃ pool, (Pool.empty unusedHeap).pbufWrapperGet (some firstBlock) = some (pool,place 0x1000 7) := ⟨_,rfl⟩
  have one : Step ⟨.empty unusedHeap,[]⟩ (.get (some firstBlock) (place 0x1000 7)) ⟨pool,[place 0x1000 7]⟩ :=
    .get (fun given same => by cases same; exact fits) got
  obtain ⟨⟨free,bases,chain,_,_,_,_,_,count⟩,_⟩ := wrappers_accounted (fun _ => rfl) (Runs.single one)
  exact ⟨_,rfl,free,bases,chain,count⟩

end NonosLinkLayer.Glue
