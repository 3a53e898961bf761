import NonosLinkLayer.Napt.System

namespace NonosLinkLayer.Napt
open LinkPool

def Chain (d : NaptData) (i : Nat) (entries : List Nat) : Prop :=
  LinkPool.Path (fun i => (d.table i).next) noIdx i entries noIdx

def activeChain (d : NaptData) : List Nat := walk (fun i => (d.table i).next) noIdx d.naptMax d.list

-- The two lists of the table in order, with the entries on them.
structure Intact (natMax : UInt16) (d : NaptData) (active free : List Nat) : Prop where
  inUse : Chain d d.list active
  unused : Chain d d.free free
  activeDistinct : active.Nodup
  freeDistinct : free.Nodup
  disjoint : active.Disjoint free
  covers : ∀ i, i ∈ active ∨ i ∈ free ↔ i < natMax.toNat
  inverse : ∀ i ∈ active, ∀ j ∈ active, (d.table i).next = j ↔ (d.table j).prev = i
  first : ∀ i, active.head? = some i → (d.table i).prev = noIdx
  last : d.listLast = active.getLast?.getD noIdx
  empty : d.listLast = noIdx ↔ active = []
  tcp : d.nrActiveTcp = active.countP fun i => (d.table i).proto = ipProtoTcp
  udp : d.nrActiveUdp = active.countP fun i => (d.table i).proto = ipProtoUdp
  icmp : d.nrActiveIcmp = active.countP fun i => (d.table i).proto = ipProtoIcmp

theorem Represents.counted (rep : Represents d a) (proto : UInt8) :
    a.slots.countP (fun i => (d.table i).proto = proto) = a.active.countP fun e => e.2.proto = proto := by
  unfold Sessions.slots
  rw [List.countP_map]
  apply List.countP_congr
  intro x member
  simp only [Function.comp,decide_eq_true_eq]
  rw [←rep.stored x member]

theorem Sound.intact (sound : Sound natMax d a) : Intact natMax d a.slots a.free := by
  have rep := sound.represents
  obtain ⟨one,two,apart⟩ := List.nodup_append.mp rep.shape.apart
  refine ⟨rep.shape.forward,rep.shape.spares,one,two,List.disjoint_of_nodup_append rep.shape.apart,?_,
    fun i one j two => rep.shape.inverse one two,?_,rep.shape.last,rep.shape.last_null,?_,?_,?_⟩
  · intro i
    rw [←sound.size]
    exact rep.covers i
  · intro i first
    have backward := rep.shape.backward
    obtain ⟨rest,split⟩ := List.head?_eq_some_iff.mp first
    rw [split] at backward
    exact backward.1
  · rw [rep.counted]; exact rep.tcp
  · rw [rep.counted]; exact rep.udp
  · rw [rep.counted]; exact rep.icmp

-- In every state of a run both lists are whole, and no event runs into the
-- assertion, leaves the table or loops for ever on a chain.
theorem tables_intact (run : Run natMax portmapMax past s) :
    (∃ active free, Intact natMax s.data active free) ∧
    ∀ now event fault, perform s.data now event = .error fault → fault = .draws := by
  obtain ⟨a,sound⟩ := run_sound run
  refine ⟨⟨a.slots,a.free,sound.intact⟩,?_⟩
  intro now event fault failed
  cases perform_ends sound.represents now event with
  | inl stuck =>
    rw [stuck] at failed
    cases failed
    rfl
  | inr ended =>
    obtain ⟨_,_,_,ran,_⟩ := ended
    rw [ran] at failed
    cases failed

-- Two hosts; one session expires and gives its slot away, one is taken over.
def busyEvents : List (Nat × Event) :=
  [(0,.forward quiet [⟨0,0⟩] lan wan (.udp 0x0204a8c0 0x3905 0x08080808 0x3500)),
   (10,.forward quiet [] lan wan (.echo icmpEcho 0x0304a8c0 0x08080808 7)),
   (20,.forward quiet [⟨1,0⟩] lan wan (.tcp 0x0304a8c0 0x3905 0x08080808 0x5000 tcpSyn)),
   (2005,.recv (.echo icmpEr 0x08080808 0x0200000a 7)),
   (2006,.forward quiet [⟨2,0⟩] lan wan (.tcp 0x0204a8c0 0x3905 0x08080808 0x5000 tcpSyn)),
   (2007,.forward quiet [] lan wan (.tcp 0x0304a8c0 0x3905 0x09090909 0x5000 tcpSyn))]

theorem busy_intact : ∃ s : System, activeChain s.data = [2,0,1] ∧ (∃ active free, Intact 3 s.data active free) ∧
    ∀ now event fault, perform s.data now event = .error fault → fault = .draws := by
  obtain ⟨s,deeds,path,_,asked⟩ := arrives_runs (fresh 3 2) busyEvents
    (fun s _ => activeChain s.data == [2,0,1]) (by decide +kernel) (by decide)
  obtain ⟨intact,ends⟩ := tables_intact (fresh_run (by decide) path)
  exact ⟨s,by simpa using asked,intact,ends⟩

end NonosLinkLayer.Napt
