import NonosLinkLayer.Glue.Errors
import NonosLinkLayer.Glue.Wrappers

namespace NonosLinkLayer.Glue
open HeapList Transitions

def PBUF_FLAG_GLUED : UInt8 := 0x40
def NETIF_FLAG_LINK_UP : UInt8 := 0x10

-- struct pbuf of the lwIP side, whose LWIP_PBUF_REF_T is u8_t. `serial` numbers
-- the allocations.
structure GitPbuf where
  next : Ptr
  payload : Ptr
  totLen : UInt16
  len : UInt16
  flags : UInt8
  ref : UInt8
  serial : Nat

-- `issued`, `clones` and `freed` only keep record: how many pbufs have been
-- allocated, which of them were clones, which of them the glue gave to pbuf_free.
structure GlueState where
  netifEsp : Fin 2 → Option UInt8
  pool : Pool
  pbufs : Ptr → Option GitPbuf
  issued : Nat
  clones : List Nat
  freed : List Nat

inductive Sending (ε : Type) where
  | failed (err : ε)
  | waits (w : Ptr)

namespace GlueState

def pbufRef (p : Ptr) (s : GlueState) : Option GlueState := do
  let b ← s.pbufs p
  pure {s with pbufs := Function.update s.pbufs p (some {b with ref := b.ref + 1})}

-- LWIP_NOASSERT is set, so nothing stops the count at either of its ends.
def unref (b : GitPbuf) : Option GitPbuf := if b.ref - 1 = 0 then none else some {b with ref := b.ref - 1}

def pbufFree (p : Ptr) (s : GlueState) : Option GlueState := do
  let b ← s.pbufs p
  pure {s with pbufs := Function.update s.pbufs p (unref b),freed := b.serial :: s.freed}

def pbufClone (b : GitPbuf) (q payload : Ptr) (s : GlueState) : GlueState :=
  {s with pbufs := Function.update s.pbufs q (some ⟨null,payload,b.totLen,b.totLen,0,1,s.issued⟩),
          issued := s.issued + 1,clones := s.issued :: s.clones}

def glue2espLinkoutput (num : Fin 2) (ref2save data : Ptr) (size : UInt16) (malloc : Option Given) (s : GlueState) :
    Option (GlueState × Sending GlueErr) :=
  match s.netifEsp num with
  | none => some (s,.failed .iface)
  | some flags =>
    if flags &&& NETIF_FLAG_LINK_UP = 0 then some (s,.failed .iface)
    else do
      let (pool,p) ← s.pool.pbufWrapperGet malloc
      if p = null then some ({s with pool},.failed .mem)
      else do
        let w ← pool.heap.node p
        if w.pbuf.type = PBUF_CUSTOM_TYPE_POOLED ∧ w.pbuf.flags = 0 ∧ w.pbuf.next = null ∧ w.pbuf.eb = null then do
          let heap ← pool.heap.store p (w.fill ref2save data size 0)
          some ({s with pool := {pool with heap}},.waits p)
        else none

def answered (p : Ptr) (answer : GlueErr) (s : GlueState) : Option (GlueState × Err) :=
  if glue2gitErr answer ≠ .ok then do
    let s ← s.pbufFree p
    pure (s,glue2gitErr answer)
  else some (s,glue2gitErr answer)

def handOver (num : Fin 2) (p : Ptr) (malloc : Option Given) (s : GlueState) : Option (GlueState × Ptr × Sending Err) := do
  let b ← s.pbufs p
  let (s,sending) ← s.glue2espLinkoutput num p b.payload b.len malloc
  match sending with
  | .failed err => do
    let (s,err) ← s.answered p err
    pure (s,p,.failed err)
  | .waits w => pure (s,p,.waits w)

def copied (b : GitPbuf) : Bool := b.next ≠ null || b.flags &&& PBUF_FLAG_GLUED ≠ 0

-- Up to where the blob runs. `clone` and `malloc` are the answers of the two
-- allocators; the pbuf in the result is the one that was handed over.
def newLinkoutput (num : Fin 2) (p : Ptr) (clone : Option (Ptr × Ptr)) (malloc : Option Given) (s : GlueState) :
    Option (GlueState × Ptr × Sending Err) := do
  let b ← s.pbufs p
  if copied b then
    match clone with
    | none => some (s,p,.failed .mem)
    | some (q,payload) => handOver num q malloc (s.pbufClone b q payload)
  else do
    let s ← s.pbufRef p
    handOver num p malloc s

def linkoutputReturned (w p : Ptr) (err : Int) (s : GlueState) : Option (GlueState × Err) := do
  let pool ← if err ≠ 0 then s.pool.pbufWrapperRelease w else some s.pool
  answered p (esp2glueErr err) {s with pool}

def espPbufRef (p : Ptr) (s : GlueState) : Option GlueState := do
  let w ← s.pool.heap.node p
  let heap ← s.pool.heap.store p {w with pbuf := {w.pbuf with ref := w.pbuf.ref + 1}}
  pure {s with pool := {s.pool with heap}}

-- pbuf_free of the ESP side for a pbuf it was given to send. The other types
-- of pbuf are for reception, and no wrappers.
def espPbufFree (p : Ptr) (s : GlueState) : Option GlueState := do
  let w ← s.pool.heap.node p
  if w.pbuf.ref = 1 ∧ w.pbuf.type = PBUF_CUSTOM_TYPE_POOLED ∧ w.pbuf.eb = null ∧ w.ref2save ≠ null then do
    let s ← s.pbufFree w.ref2save
    let pool ← s.pool.pbufWrapperRelease p
    pure {s with pool}
  else none

end GlueState

structure Flight where
  ticket : Nat
  wrapper : Ptr
  pbuf : Ptr
deriving DecidableEq

-- `own` counts the references that lwIP holds itself. `flights` are the
-- wrappers the blob still has to free, `calls` the calls of its linkoutput
-- that have not returned.
structure World where
  glue : GlueState
  own : Ptr → Nat
  tickets : Nat
  flights : List Flight
  calls : List Flight

inductive Event where
  | send (num : Fin 2) (p : Ptr) (clone : Option (Ptr × Ptr)) (malloc : Option Given) (f : Flight)
  | refused (num : Fin 2) (p : Ptr) (clone : Option (Ptr × Ptr)) (malloc : Option Given) (err : Err)
  | returned (f : Flight) (err : Int) (answer : Err)
  | reffed (f : Flight)
  | completed (f : Flight)
  | alloc (p : Ptr) (b : GitPbuf)
  | ref (p : Ptr)
  | free (p : Ptr)
  | write (p : Ptr) (b : GitPbuf)
  | netif (num : Fin 2) (flags : Option UInt8)

structure Offered (s : World) (clone : Option (Ptr × Ptr)) (malloc : Option Given) : Prop where
  clone : ∀ q payload, clone = some (q,payload) → q ≠ null ∧ s.glue.pbufs q = none
  malloc : ∀ given, malloc = some given → given.Fits s.glue.pool.heap

-- lwIP sends what it holds. The blob frees what it was handed, once, unless
-- it answers with an error; it may do so before it answers.
inductive Deed : World → Event → World → Prop where
  | send {s : World} {glue : GlueState} {num : Fin 2} {p q w : Ptr} {clone : Option (Ptr × Ptr)} {malloc : Option Given}
      (holds : 0 < s.own p) (offered : Offered s clone malloc)
      (run : s.glue.newLinkoutput num p clone malloc = some (glue,q,.waits w)) :
      Deed s (.send num p clone malloc ⟨s.tickets,w,q⟩)
        ⟨glue,s.own,s.tickets + 1,⟨s.tickets,w,q⟩ :: s.flights,⟨s.tickets,w,q⟩ :: s.calls⟩
  | refused {s : World} {glue : GlueState} {num : Fin 2} {p q : Ptr} {clone : Option (Ptr × Ptr)} {malloc : Option Given} {err : Err}
      (holds : 0 < s.own p) (offered : Offered s clone malloc)
      (run : s.glue.newLinkoutput num p clone malloc = some (glue,q,.failed err)) :
      Deed s (.refused num p clone malloc err) {s with glue}
  | returned {s : World} {glue : GlueState} {f : Flight} {err : Int} {answer : Err} (called : f ∈ s.calls)
      (kept : err ≠ 0 → f ∈ s.flights) (run : s.glue.linkoutputReturned f.wrapper f.pbuf err = some (glue,answer)) :
      Deed s (.returned f err answer)
        {s with glue,calls := s.calls.erase f,flights := if err = 0 then s.flights else s.flights.erase f}
  | reffed {s : World} {glue : GlueState} {f : Flight} (handed : f ∈ s.flights) (run : s.glue.espPbufRef f.wrapper = some glue) :
      Deed s (.reffed f) {s with glue}
  | completed {s : World} {glue : GlueState} {f : Flight} (handed : f ∈ s.flights) (run : s.glue.espPbufFree f.wrapper = some glue) :
      Deed s (.completed f) {s with glue,flights := s.flights.erase f}
  | alloc {s : World} {p : Ptr} {b : GitPbuf} (real : p ≠ null) (fresh : s.glue.pbufs p = none) :
      Deed s (.alloc p b) {s with
        glue := {s.glue with pbufs := Function.update s.glue.pbufs p (some {b with ref := 1,serial := s.glue.issued}),
                             issued := s.glue.issued + 1},
        own := Function.update s.own p 1}
  | ref {s : World} {glue : GlueState} {p : Ptr} (holds : 0 < s.own p) (run : s.glue.pbufRef p = some glue) :
      Deed s (.ref p) {s with glue,own := Function.update s.own p (s.own p + 1)}
  | free {s : World} {p : Ptr} {b : GitPbuf} (holds : 0 < s.own p) (there : s.glue.pbufs p = some b) :
      Deed s (.free p) {s with glue := {s.glue with pbufs := Function.update s.glue.pbufs p (GlueState.unref b)},
                               own := Function.update s.own p (s.own p - 1)}
  | write {s : World} {p : Ptr} {b c : GitPbuf} (holds : 0 < s.own p) (there : s.glue.pbufs p = some b) :
      Deed s (.write p c)
        {s with glue := {s.glue with pbufs := Function.update s.glue.pbufs p (some {c with ref := b.ref,serial := b.serial})}}
  | netif {s : World} {num : Fin 2} {flags : Option UInt8} :
      Deed s (.netif num flags) {s with glue := {s.glue with netifEsp := Function.update s.glue.netifEsp num flags}}

end NonosLinkLayer.Glue
