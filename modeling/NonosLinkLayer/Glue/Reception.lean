import NonosLinkLayer.Glue.Ownership

namespace NonosLinkLayer.Glue
open HeapList Transitions

inductive PbufLayer where
  | transport | ip | link | raw
deriving DecidableEq

def PBUF_RAM : UInt8 := 0
def PBUF_REF : UInt8 := 2
def EP_OFFSET : Nat := 36
def SIZEOF_STRUCT_PBUF : Nat := 20
def MEM_ALIGNMENT : Nat := 4

def lwipMemAlignSize (size : Nat) : Nat := (size + MEM_ALIGNMENT - 1) / MEM_ALIGNMENT * MEM_ALIGNMENT

def allocLen (length : UInt16) (type : UInt8) : Nat :=
  if type = PBUF_RAM then lwipMemAlignSize (SIZEOF_STRUCT_PBUF + EP_OFFSET) + lwipMemAlignSize length.toNat
  else lwipMemAlignSize SIZEOF_STRUCT_PBUF

-- pbuf_alloc of the ESP side, where `pvPortMalloc` answers for a size.
def pbufAlloc (layer : PbufLayer) (length : UInt16) (type : UInt8) (pvPortMalloc : Nat → Option Ptr) : Option (Ptr × Pbuf) :=
  if layer = .raw ∧ type = PBUF_RAM then
    (pvPortMalloc (allocLen length type)).map fun p =>
      (p,⟨null,lwipMemAlignSize (p + SIZEOF_STRUCT_PBUF + EP_OFFSET),length,length,type,0,1,null⟩)
  else if layer = .raw ∧ type = PBUF_REF then
    (pvPortMalloc (allocLen length type)).map fun p => (p,⟨null,null,length,length,type,0,1,null⟩)
  else none

theorem aligned_enough (size : Nat) : size ≤ lwipMemAlignSize size := by
  unfold lwipMemAlignSize MEM_ALIGNMENT
  omega

theorem aligned_same {size : Nat} (even : size % 4 = 0) : lwipMemAlignSize size = size := by
  unfold lwipMemAlignSize MEM_ALIGNMENT
  omega

theorem pbufAlloc_inside {pvPortMalloc : Nat → Option Ptr} {layer : PbufLayer} {length : UInt16} {p : Ptr} {b : Pbuf}
    (ran : pbufAlloc layer length PBUF_RAM pvPortMalloc = some (p,b)) (aligned : p % MEM_ALIGNMENT = 0) :
    pvPortMalloc (allocLen length PBUF_RAM) = some p ∧ b.payload % MEM_ALIGNMENT = 0 ∧
      p + SIZEOF_STRUCT_PBUF + EP_OFFSET ≤ b.payload ∧ b.payload + length.toNat ≤ p + allocLen length PBUF_RAM := by
  unfold pbufAlloc at ran
  split_ifs at ran with raw other
  · obtain ⟨q,given,same⟩ := Option.map_eq_some_iff.mp ran
    cases same
    refine ⟨given,?_⟩
    have words : (p + 56) % 4 = 0 := (Nat.add_mul_mod_self_right p 14 4).trans aligned
    have payload : lwipMemAlignSize (p + SIZEOF_STRUCT_PBUF + EP_OFFSET) = p + 56 := aligned_same words
    have size : lwipMemAlignSize (SIZEOF_STRUCT_PBUF + EP_OFFSET) = 56 := rfl
    have body := aligned_enough length.toNat
    unfold allocLen
    rw [if_pos rfl,size,payload]
    refine ⟨words,Nat.le_refl _,?_⟩
    rw [Nat.add_assoc]
    exact Nat.add_le_add_left (Nat.add_le_add_left body 56) p
  · exact absurd other.2 (by decide)

structure Received where
  pbuf : Pbuf
  frame : List UInt8

-- Both sides, with the bytes of the packets on the lwIP side, a clone's as those of the
-- packet it was made of. `recycled` are the buffers given back by
-- system_pp_recycle_rx_pkt. The last two keep record: of each packet what lwIP, or the
-- glue for it, has made of it, and what the blob was handed and made of it.
structure Link where
  world : World
  rx : Ptr → Option Received
  content : Ptr → List UInt8
  recycled : List Ptr
  seen : Ptr → List UInt8
  handed : Ptr → List UInt8

def World.allocated (s : World) (p : Ptr) (b : GitPbuf) : World :=
  {s with
    glue := {s.glue with
      pbufs := Function.update s.glue.pbufs p (some {b with ref := 1,serial := s.glue.issued}),
      issued := s.glue.issued + 1}
    own := Function.update s.own p 1}

namespace Link

def start (heap : Heap PbufWrapper) (netif : Fin 2 → Option UInt8) : Link :=
  ⟨.start heap netif,fun _ => none,fun _ => [],[],fun _ => [],fun _ => []⟩

-- `alloc` is what pbuf_alloc of lwIP gives: a pbuf and its payload.
def esp2glueAllocForRecv (s : Link) (len : UInt16) (alloc : Option (Ptr × Ptr)) : Link × Ptr :=
  match alloc with
  | none => (s,null)
  | some (q,data) => ({s with world := s.world.allocated q ⟨null,data,len,len,0 ||| PBUF_FLAG_GLUED,1,0⟩},q)

-- pbuf_free of the ESP side for a pbuf it did not get from the glue.
def recvPbufFree (s : Link) (p : Ptr) : Option (Link × UInt8) := do
  let x ← s.rx p
  if x.pbuf.next = null ∧ x.pbuf.ref = 1 ∧ (x.pbuf.type = PBUF_RAM ∨ x.pbuf.type = PBUF_REF) then
    some ({s with
      rx := Function.update s.rx p none
      recycled := if x.pbuf.eb ≠ null then s.recycled ++ [x.pbuf.eb] else s.recycled},1)
  else some (s,0)

-- Up to where lwIP gets the frame; a null pointer is a packet lost.
def ethernetInput (s : Link) (p : Ptr) (alloc : Option (Ptr × Ptr)) : Option (Link × Ptr) := do
  let x ← s.rx p
  let (s,gluePbuf) := s.esp2glueAllocForRecv x.pbuf.len alloc
  let bytes := x.frame.take x.pbuf.len.toNat
  let s := if gluePbuf ≠ null then
    {s with content := Function.update s.content gluePbuf bytes,seen := Function.update s.seen gluePbuf bytes} else s
  let (s,_) ← s.recvPbufFree p
  some (s,gluePbuf)

def inputResult (gluePbuf : Ptr) (answer : Err) : Int :=
  if gluePbuf = null then glue2espErr .mem else glue2espErr (git2glueErr answer)

end Link

structure Received.Single (x : Received) : Prop where
  next : x.pbuf.next = null
  ref : x.pbuf.ref = 1
  type : x.pbuf.type = PBUF_RAM ∨ x.pbuf.type = PBUF_REF
  len : x.pbuf.totLen = x.pbuf.len
  frame : x.pbuf.len.toNat ≤ x.frame.length

section Spec
variable {s next : Link} {p q : Ptr} {x : Received}

def Received.buffers (x : Received) : List Ptr := if x.pbuf.eb ≠ null then [x.pbuf.eb] else []

theorem recvPbufFree_single (here : s.rx p = some x) (single : x.Single) :
    s.recvPbufFree p = some ({s with rx := Function.update s.rx p none,recycled := s.recycled ++ x.buffers},1) := by
  unfold Link.recvPbufFree Received.buffers
  rw [here]
  dsimp only [Option.bind_eq_bind,Option.bind_some]
  rw [if_pos ⟨single.next,single.ref,single.type⟩]
  split_ifs
  · rfl
  · rw [List.append_nil]

theorem recvPbufFree_there {answer : UInt8} (run : s.recvPbufFree p = some (next,answer)) : ∃ x, s.rx p = some x :=
  (Option.bind_eq_some_iff.mp run).imp fun _ found => found.1

theorem ethernetInput_there {alloc : Option (Ptr × Ptr)} (run : s.ethernetInput p alloc = some (next,q)) : ∃ x, s.rx p = some x :=
  (Option.bind_eq_some_iff.mp run).imp fun _ found => found.1

-- Lost or not, the blob has its pbuf and its buffer back.
theorem ethernetInput_lost (here : s.rx p = some x) (single : x.Single) :
    s.ethernetInput p none =
      some ({s with rx := Function.update s.rx p none,recycled := s.recycled ++ x.buffers},null) := by
  have freed := recvPbufFree_single here single
  unfold Link.ethernetInput Link.esp2glueAllocForRecv
  rw [here]
  dsimp only [Option.bind_eq_bind,Option.bind_some]
  rw [if_neg (not_not.mpr rfl),freed]
  rfl

theorem ethernetInput_taken (here : s.rx p = some x) (single : x.Single) (real : q ≠ null) (data : Ptr) :
    s.ethernetInput p (some (q,data)) = some
      ({s with
        world := s.world.allocated q ⟨null,data,x.pbuf.len,x.pbuf.len,PBUF_FLAG_GLUED,1,0⟩
        content := Function.update s.content q (x.frame.take x.pbuf.len.toNat)
        seen := Function.update s.seen q (x.frame.take x.pbuf.len.toNat)
        rx := Function.update s.rx p none
        recycled := s.recycled ++ x.buffers},q) := by
  have glued : (0 ||| PBUF_FLAG_GLUED : UInt8) = PBUF_FLAG_GLUED := by decide
  unfold Link.ethernetInput Link.esp2glueAllocForRecv
  rw [here]
  dsimp only [Option.bind_eq_bind,Option.bind_some]
  rw [if_pos real,glued]
  have freed := recvPbufFree_single (s:={s with
    world := s.world.allocated q ⟨null,data,x.pbuf.len,x.pbuf.len,PBUF_FLAG_GLUED,1,0⟩
    content := Function.update s.content q (x.frame.take x.pbuf.len.toNat)
    seen := Function.update s.seen q (x.frame.take x.pbuf.len.toNat)}) here single
  rw [freed]
  rfl

end Spec

end NonosLinkLayer.Glue
