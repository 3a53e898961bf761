import NonosLinkLayer.Base.HeapList
import NonosLinkLayer.Espconn.RingBuffer

namespace NonosLinkLayer.Espconn
open HeapList LinkPool

def Receiver.intoRing (rb : RingBuf) : List (List UInt8) → Option RingBuf
  | [] => some rb
  | payload :: rest => do
    let (rb,_) ← rb.ringbufMemcpyInto payload payload.length
    intoRing rb rest

structure Pbuf where
  payload : List UInt8
  ref : UInt8
  deriving DecidableEq

-- The memory of the pbufs. `freed` lists the pbufs deallocated, oldest first, and
-- `stale` those read after they were deallocated.
structure Pbufs where
  heap : Heap Pbuf
  freed : List Ptr
  stale : List Ptr

-- What the allocator leaves in the memory of a deallocated pbuf.
abbrev Leave := Ptr → Pbuf → Ptr × Pbuf

namespace Pbufs

def read (m : Pbufs) (p : Ptr) : Pbufs := if m.heap.live p then m else {m with stale := m.stale ++ [p]}

def setRef (m : Pbufs) (p : Ptr) (ref : UInt8) : Pbufs :=
  {m with heap := m.heap.stored p {m.heap.pnode p with ref}}

def deallocate (leave : Leave) (m : Pbufs) (p : Ptr) : Pbufs :=
  let (next,b) := leave (m.heap.pnext p) (m.heap.pnode p)
  {m with heap := ((m.heap.linked p next).stored p b).freed p,freed := m.freed ++ [p]}

-- pbuf_free of lwIP: it goes on along the chain as long as no one else refers to it.
def pbufFree (leave : Leave) : Nat → Pbufs → Ptr → Option Pbufs
  | 0,_,_ => none
  | turns+1,m,p =>
    if p = null then some m
    else
      let m := m.read p
      let ref := (m.heap.pnode p).ref - 1
      let m := m.setRef p ref
      if ref = 0 then pbufFree leave turns (m.deallocate leave p) (m.heap.pnext p) else some m

-- The loop over the chain of pbufs. ringbuf_memcpy_into gives back NULL where an
-- assertion of it fails, which has no result here; so it makes no difference that
-- espconn_tcp_recv alone looks at what it gives back.
def storeLoop (leave : Leave) : Nat → Pbufs → Ptr → RingBuf → Option (Pbufs × RingBuf)
  | 0,_,_,_ => none
  | turns+1,m,pthis,rb =>
    if pthis = null then some (m,rb)
    else do
      let m := m.read pthis
      let b := m.heap.pnode pthis
      let (rb,_) ← rb.ringbufMemcpyInto b.payload b.payload.length
      let m ← pbufFree leave turns m pthis
      let m := m.read pthis
      storeLoop leave turns m (m.heap.pnext pthis) rb

def espconnTcpRecvLoop : Leave → Nat → Pbufs → Ptr → RingBuf → Option (Pbufs × RingBuf) := storeLoop
def espconnClientRecvLoop : Leave → Nat → Pbufs → Ptr → RingBuf → Option (Pbufs × RingBuf) := storeLoop
def espconnServerRecvLoop : Leave → Nat → Pbufs → Ptr → RingBuf → Option (Pbufs × RingBuf) := storeLoop

def payloads (m : Pbufs) (cells : List Ptr) : List (List UInt8) := cells.map fun c => (m.heap.pnode c).payload

structure Arrived (m : Pbufs) (p : Ptr) (cells : List Ptr) : Prop where
  chain : Chain m.heap p cells
  alone : ∀ c ∈ cells, (m.heap.pnode c).ref = 1
  fresh : m.freed = [] ∧ m.stale = []

-- What consuming a chain takes: its payloads are stored in order, no pbuf is read once it
-- is deallocated, and each is deallocated exactly once.
structure Consumed (m : Pbufs) (rb : RingBuf) (cells : List Ptr) (m' : Pbufs) (rb' : RingBuf) : Prop where
  stored : Receiver.intoRing rb (m.payloads cells) = some rb'
  untouched : m'.stale = []
  once : ∀ c ∈ cells, m'.freed.count c = 1

def Consumes (loop : Pbufs → Ptr → RingBuf → Option (Pbufs × RingBuf)) (m : Pbufs) (p : Ptr) (rb : RingBuf) (cells : List Ptr) : Prop :=
  ∃ m' rb', loop m p rb = some (m',rb') ∧ Consumed m rb cells m' rb'

section Reads
variable {leave : Leave} {m m' : Pbufs} {p q : Ptr} {turns : Nat} {rb rb' : RingBuf}

@[simp] theorem read_heap : (m.read p).heap = m.heap := by
  unfold read
  split <;> rfl

@[simp] theorem read_freed : (m.read p).freed = m.freed := by
  unfold read
  split <;> rfl

theorem read_live (live : m.heap.live p = true) : m.read p = m := if_pos live

theorem read_dead (dead : m.heap.live p = false) : m.read p = {m with stale := m.stale ++ [p]} := by
  simp [read,dead]

theorem read_stale : m.stale <+: (m.read p).stale := by
  unfold read
  split
  · exact List.prefix_rfl
  · exact List.prefix_append _ _

@[simp] theorem setRef_live : (m.setRef p ref).heap.live = m.heap.live := rfl
@[simp] theorem setRef_pnext : (m.setRef p ref).heap.pnext = m.heap.pnext := rfl
@[simp] theorem setRef_stale : (m.setRef p ref).stale = m.stale := rfl
@[simp] theorem setRef_freed : (m.setRef p ref).freed = m.freed := rfl
@[simp] theorem deallocate_freed : (m.deallocate leave p).freed = m.freed ++ [p] := rfl
@[simp] theorem deallocate_live : (m.deallocate leave p).heap.live = Function.update m.heap.live p false := rfl

-- Nothing takes a stale read back, and nothing allocates.
theorem pbufFree_later (ran : pbufFree leave turns m p = some m') :
    m.stale <+: m'.stale ∧ ∀ c, m.heap.live c = false → m'.heap.live c = false := by
  induction turns generalizing m p with
  | zero => cases ran
  | succ turns ih =>
    unfold pbufFree at ran
    dsimp only at ran
    split_ifs at ran with atEnd last
    · cases ran
      exact ⟨List.prefix_rfl,fun _ dead => dead⟩
    · obtain ⟨later,dead⟩ := ih ran
      refine ⟨read_stale.trans later,fun c gone => dead c ?_⟩
      by_cases here : c = p <;> simp [Function.update,here,gone]
    · cases ran
      exact ⟨read_stale,fun c gone => by simpa using gone⟩

theorem storeLoop_later (ran : storeLoop leave turns m p rb = some (m',rb')) : m.stale <+: m'.stale := by
  induction turns generalizing m p rb with
  | zero => cases ran
  | succ turns ih =>
    unfold storeLoop at ran
    split_ifs at ran with atEnd
    · cases ran
      exact List.prefix_rfl
    · simp only [Option.bind_eq_bind,Option.bind_eq_some_iff] at ran
      obtain ⟨_,_,m1,freed,onward⟩ := ran
      exact ((read_stale.trans (pbufFree_later freed).1).trans read_stale).trans (ih onward)

theorem pbufFree_more (more : Nat) (ran : pbufFree leave turns m p = some m') : pbufFree leave (turns + more) m p = some m' := by
  induction turns generalizing m p with
  | zero => cases ran
  | succ turns ih =>
    rw [Nat.succ_add]
    unfold pbufFree at ran ⊢
    dsimp only at ran ⊢
    split_ifs at ran ⊢
    · exact ran
    · exact ih ran
    · exact ran

theorem storeLoop_more (more : Nat) (ran : storeLoop leave turns m p rb = some (m',rb')) :
    storeLoop leave (turns + more) m p rb = some (m',rb') := by
  induction turns generalizing m p rb with
  | zero => cases ran
  | succ turns ih =>
    rw [Nat.succ_add]
    unfold storeLoop at ran ⊢
    split_ifs at ran ⊢
    · exact ran
    · simp only [Option.bind_eq_bind,Option.bind_eq_some_iff] at ran ⊢
      obtain ⟨result,wrote,m1,freed,onward⟩ := ran
      exact ⟨result,wrote,m1,pbufFree_more more freed,ih onward⟩

theorem pbufFree_last (real : p ≠ null) (last : (m.heap.pnode p).ref = 1) (ran : pbufFree leave turns m p = some m') :
    m'.heap.live p = false := by
  cases turns with
  | zero => cases ran
  | succ turns =>
    unfold pbufFree at ran
    rw [if_neg real] at ran
    simp only [read_heap,last] at ran
    exact (pbufFree_later ran).2 p (by simp)

-- The loop frees a pbuf before it looks for the next one in it.
theorem storeLoop_stale (real : p ≠ null) (last : (m.heap.pnode p).ref = 1) (ran : storeLoop leave turns m p rb = some (m',rb')) :
    p ∈ m'.stale := by
  cases turns with
  | zero => cases ran
  | succ turns =>
    unfold storeLoop at ran
    rw [if_neg real] at ran
    simp only [Option.bind_eq_bind,Option.bind_eq_some_iff] at ran
    obtain ⟨_,_,m1,freed,onward⟩ := ran
    have gone := pbufFree_last real (by simpa using last) freed
    rw [read_dead gone] at onward
    exact (storeLoop_later onward).subset (by simp)

end Reads

-- However the memory of a deallocated pbuf is used, none of the three loops consumes any chain.
theorem never_consumed (leave : Leave) (arrived : Arrived m p (first :: rest)) (turns : Nat) (rb : RingBuf) :
    ¬ Consumes (espconnTcpRecvLoop leave turns) m p rb (first :: rest) ∧
    ¬ Consumes (espconnClientRecvLoop leave turns) m p rb (first :: rest) ∧
    ¬ Consumes (espconnServerRecvLoop leave turns) m p rb (first :: rest) := by
  obtain ⟨rfl,real,_⟩ := arrived.chain.path
  have never : ¬ Consumes (storeLoop leave turns) m p rb (p :: rest) := by
    rintro ⟨m',rb',ran,consumed⟩
    have stale := storeLoop_stale real (arrived.alone p (by simp)) ran
    rw [consumed.untouched] at stale
    cases stale
  exact ⟨never,never,never⟩

section Kept
variable {m : Pbufs} {p : Ptr} {cells : List Ptr} {turns : Nat} {rb : RingBuf}

-- Deallocated memory that no one writes to.
def keep : Leave := fun next b => (next,b)

theorem pbufFree_keep (path : Path m.heap.pnext null p cells null) (apart : cells.Nodup)
    (live : ∀ c ∈ cells, m.heap.live c = true) (alone : ∀ c ∈ cells, (m.heap.pnode c).ref = 1) (enough : cells.length < turns) :
    ∃ m', pbufFree keep turns m p = some m' ∧ m'.heap.pnext = m.heap.pnext ∧ m'.freed = m.freed ++ cells ∧ m'.stale = m.stale ∧
      (∀ c ∈ cells, m'.heap.live c = false ∧ m'.heap.pnode c = {m.heap.pnode c with ref := 0}) ∧
      ∀ c, c ∉ cells → m'.heap.pnode c = m.heap.pnode c := by
  induction cells generalizing m p turns with
  | nil =>
    obtain ⟨turns,rfl⟩ := Nat.exists_eq_add_one_of_ne_zero (by omega : turns ≠ 0)
    cases path
    exact ⟨m,by simp [pbufFree],rfl,by simp,rfl,by simp,by simp⟩
  | cons c rest ih =>
    obtain ⟨turns,rfl⟩ := Nat.exists_eq_add_one_of_ne_zero (by omega : turns ≠ 0)
    obtain ⟨rfl,real,onward⟩ := path
    obtain ⟨foreign,apart⟩ := List.nodup_cons.mp apart
    have others (q : Ptr) (other : q ≠ p) : (((m.setRef p 0).deallocate keep p).heap.pnode q) = m.heap.pnode q := by
      simp [deallocate,setRef,Heap.stored,Heap.freed,Heap.linked,other]
    have here : ((m.setRef p 0).deallocate keep p).heap.pnode p = {m.heap.pnode p with ref := 0} := by
      simp [deallocate,setRef,Heap.stored,Heap.freed,Heap.linked,keep]
    have links : ((m.setRef p 0).deallocate keep p).heap.pnext = m.heap.pnext := by
      simp [deallocate,setRef,Heap.stored,Heap.freed,Heap.linked,keep]
    have apartFrom (q : Ptr) (member : q ∈ rest) : q ≠ p := fun same => foreign (same ▸ member)
    obtain ⟨m',ran,next,freed,stale,gone,same⟩ := ih (m:=(m.setRef p 0).deallocate keep p) (links ▸ onward) apart
      (fun q member => by simp [Function.update,apartFrom q member,live q (List.mem_cons_of_mem p member)])
      (fun q member => by rw [others q (apartFrom q member)]; exact alone q (List.mem_cons_of_mem p member))
      (by simpa using enough)
    refine ⟨m',?_,next.trans links,by simp [freed],stale,?_,?_⟩
    · unfold pbufFree
      rw [if_neg real,read_live (live p (by simp))]
      rw [links] at ran
      simpa [alone p (by simp)] using ran
    · intro q member
      rcases List.mem_cons.mp member with rfl | later
      · exact ⟨(pbufFree_later ran).2 q (by simp),(same q foreign).trans here⟩
      · rw [(gone q later).2,others q (apartFrom q later)]
        exact ⟨(gone q later).1,rfl⟩
    · intro q outside
      obtain ⟨other,beyond⟩ : q ≠ p ∧ q ∉ rest := by simpa using outside
      exact (same q beyond).trans (others q other)

-- A reference more is given up than there is: the count runs over.
theorem pbufFree_spent (real : p ≠ null) (spent : (m.heap.pnode p).ref = 0) :
    pbufFree keep (turns + 1) m p = some ((m.read p).setRef p 255) := by
  have under : (((m.read p).heap.pnode p).ref - 1 : UInt8) = 255 := by
    rw [read_heap,spent]
    rfl
  unfold pbufFree
  rw [if_neg real]
  dsimp only
  rw [under]
  exact if_neg (by decide)

-- Going on in a chain that is deallocated, with every reference given up.
theorem storeLoop_dead (path : Path m.heap.pnext null p cells null) (apart : cells.Nodup)
    (dead : ∀ c ∈ cells, m.heap.live c = false) (spent : ∀ c ∈ cells, (m.heap.pnode c).ref = 0) (enough : cells.length + 1 < turns) :
    ∃ m', storeLoop keep turns m p rb = (Receiver.intoRing rb (m.payloads cells)).map (fun rb' => (m',rb')) ∧
      m'.freed = m.freed ∧ m'.stale = m.stale ++ cells.flatMap fun c => [c,c,c] := by
  induction cells generalizing m p turns rb with
  | nil =>
    obtain ⟨turns,rfl⟩ := Nat.exists_eq_add_one_of_ne_zero (by omega : turns ≠ 0)
    cases path
    exact ⟨m,by simp [storeLoop,payloads,Receiver.intoRing],rfl,by simp⟩
  | cons c rest ih =>
    obtain ⟨turns,rfl⟩ := Nat.exists_eq_add_one_of_ne_zero (by omega : turns ≠ 0)
    obtain ⟨turns,rfl⟩ := Nat.exists_eq_add_one_of_ne_zero (by rw [List.length_cons] at enough; omega : turns ≠ 0)
    obtain ⟨rfl,real,onward⟩ := path
    obtain ⟨foreign,apart⟩ := List.nodup_cons.mp apart
    have gone := dead p (by simp)
    have apartFrom (q : Ptr) (member : q ∈ rest) : q ≠ p := fun same => foreign (same ▸ member)
    -- What one round leaves: three more stale reads, and a reference count that has run over.
    have freeing : pbufFree keep (turns + 1) (m.read p) p = some (((m.read p).read p).setRef p 255) :=
      pbufFree_spent real (by rw [read_heap]; exact spent p (by simp))
    have others (q : Ptr) (member : q ∈ rest) : (((((m.read p).read p).setRef p 255).read p).heap.pnode q) = m.heap.pnode q := by
      simp [setRef,Heap.stored,apartFrom q member]
    have same : ((((m.read p).read p).setRef p 255).read p).payloads rest = m.payloads rest :=
      List.map_congr_left fun q member => congrArg Pbuf.payload (others q member)
    have round (rb : RingBuf) := @ih ((((m.read p).read p).setRef p 255).read p) (m.heap.pnext p) (turns + 1) rb
      (by simpa using onward) apart (fun q member => by simpa using dead q (by simp [member]))
      (fun q member => by rw [others q member]; exact spent q (by simp [member])) (by simpa using enough)
    have stored : m.payloads (p :: rest) = (m.heap.pnode p).payload :: m.payloads rest := rfl
    unfold storeLoop
    rw [if_neg real,stored,Receiver.intoRing]
    dsimp only
    rw [read_heap]
    cases wrote : rb.ringbufMemcpyInto (m.heap.pnode p).payload (m.heap.pnode p).payload.length with
    | none =>
      obtain ⟨m',_,freed,stale⟩ := round rb
      exact ⟨m',rfl,by simpa using freed,by simpa [read_dead,gone] using stale⟩
    | some result =>
      obtain ⟨m',ran,freed,stale⟩ := round result.1
      refine ⟨m',?_,by simpa using freed,by simpa [read_dead,gone] using stale⟩
      rw [same] at ran
      simpa [freeing] using ran

-- As long as no one writes to deallocated memory, all the payloads are stored and every
-- pbuf is deallocated once; but all this is read too late: of the first pbuf its `next`,
-- and all of the others.
theorem kept_stored (arrived : Arrived m p (p :: cells)) (enough : cells.length + 2 < turns) :
    ∃ m', storeLoop keep turns m p rb = (Receiver.intoRing rb (m.payloads (p :: cells))).map (fun rb' => (m',rb')) ∧
      m'.freed = p :: cells ∧ m'.stale = p :: cells.flatMap fun c => [c,c,c] := by
  obtain ⟨turns,rfl⟩ := Nat.exists_eq_add_one_of_ne_zero (by omega : turns ≠ 0)
  obtain ⟨⟨path,apart,live⟩,alone,none_freed,none_stale⟩ := arrived
  obtain ⟨m1,freeing,links,freed,stale,gone,_⟩ := pbufFree_keep path apart live alone (by simpa using by omega : (p :: cells).length < turns)
  obtain ⟨_,real,onward⟩ := path
  have spent (c : Ptr) (member : c ∈ p :: cells) : m1.heap.live c = false ∧ (m1.heap.pnode c).ref = 0 := by
    rw [(gone c member).2]
    exact ⟨(gone c member).1,rfl⟩
  have same : (m1.read p).payloads cells = m.payloads cells := by
    refine List.map_congr_left fun c member => ?_
    rw [read_heap,(gone c (List.mem_cons_of_mem p member)).2]
  have round (rb : RingBuf) := @storeLoop_dead (m1.read p) (m1.heap.pnext p) cells turns rb (by simpa [links] using onward)
    (List.nodup_cons.mp apart).2 (fun c member => by simpa using (spent c (by simp [member])).1)
    (fun c member => by simpa using (spent c (by simp [member])).2) (by omega)
  have stored : m.payloads (p :: cells) = (m.heap.pnode p).payload :: m.payloads cells := rfl
  unfold storeLoop
  rw [if_neg real,stored,Receiver.intoRing,read_live (live p (by simp))]
  dsimp only
  cases wrote : rb.ringbufMemcpyInto (m.heap.pnode p).payload (m.heap.pnode p).payload.length with
  | none =>
    obtain ⟨m',_,freed',stale'⟩ := round rb
    exact ⟨m',rfl,by simpa [freed,none_freed] using freed',by simpa [read_dead,spent,stale,none_stale] using stale'⟩
  | some result =>
    obtain ⟨m',ran,freed',stale'⟩ := round result.1
    refine ⟨m',?_,by simpa [freed,none_freed] using freed',by simpa [read_dead,spent,stale,none_stale] using stale'⟩
    rw [same] at ran
    simpa [freeing] using ran

theorem storeLoop_kept {m' : Pbufs} {rb' : RingBuf} (arrived : Arrived m p cells)
    (ran : storeLoop keep turns m p rb = some (m',rb')) : Receiver.intoRing rb (m.payloads cells) = some rb' := by
  cases cells with
  | nil =>
    cases turns with
    | zero => cases ran
    | succ turns =>
      have empty : p = null := arrived.chain.path
      unfold storeLoop at ran
      rw [if_pos empty] at ran
      cases ran
      rfl
  | cons first rest =>
    obtain ⟨rfl,_⟩ := arrived.chain.path
    obtain ⟨last,stored,_⟩ := @kept_stored m p rest (turns + (rest.length + 3)) rb arrived (by omega)
    rw [storeLoop_more (rest.length + 3) ran] at stored
    obtain ⟨_,into,same⟩ := Option.map_eq_some_iff.mp stored.symm
    cases same
    exact into

end Kept

def segments : Pbufs :=
  ⟨⟨fun p => if p = 1 then 2 else null,fun p => if p = 1 then ⟨[1,2],1⟩ else ⟨[3,4],1⟩,fun p => p == 1 || p == 2⟩,[],[]⟩

def tenBytes : RingBuf := ⟨⟨List.replicate 11 0,by decide,by decide⟩,0,0,11⟩

theorem segments_arrived : Arrived segments 1 [1,2] := by
  refine ⟨⟨?_,by decide,by decide⟩,by decide,rfl,rfl⟩
  simp [LinkPool.Path,segments,null]

theorem segments_never_consumed : ¬ Consumes (espconnTcpRecvLoop keep 5) segments 1 tenBytes [1,2] ∧
    ¬ Consumes (espconnClientRecvLoop keep 5) segments 1 tenBytes [1,2] ∧
    ¬ Consumes (espconnServerRecvLoop keep 5) segments 1 tenBytes [1,2] :=
  never_consumed keep segments_arrived 5 tenBytes

-- The second segment is stored from memory that is no longer its.
theorem segments_stale : ∃ m' rb', espconnTcpRecvLoop keep 5 segments 1 tenBytes = some (m',rb') ∧ m'.freed = [1,2] ∧
    m'.stale = [1,2,2,2] ∧ ¬ Consumed segments tenBytes [1,2] m' rb' := by
  obtain ⟨m',ran,freed,stale⟩ := kept_stored segments_arrived (by decide : 1 + 2 < 5)
  have fits : (Receiver.intoRing tenBytes (segments.payloads [1,2])).isSome = true := by decide +kernel
  obtain ⟨rb',stored⟩ := Option.isSome_iff_exists.mp fits
  rw [stored] at ran
  refine ⟨m',rb',ran,freed,stale,fun consumed => ?_⟩
  cases stale.symm.trans consumed.untouched

end Pbufs
end NonosLinkLayer.Espconn
