import NonosLinkLayer.Napt.Flows

namespace NonosLinkLayer.Napt
open Transitions

inductive Event where
  | recv (p : Datagram)
  | forward (pcbs : LocalPcbs) (draws : List Draw) (inp outp : Netif) (p : Datagram)
  | portmapAdd (proto : UInt8) (maddr : UInt32) (mport : UInt16) (daddr : UInt32) (dport : UInt16)
  | portmapRemove (proto : UInt8) (mport : UInt16)

inductive Reply where
  | received (p : Packet)
  | forwarded (p : Packet) (err : Err) (unreach : Bool)
  | done (result : UInt8)

def perform (d : NaptData) (now : UInt32) : Event → Except Fault (NaptData × Reply)
  | .recv p => do
    let (d,p) ← ipNaptRecv d now p.packet
    return (d,.received p)
  | .forward pcbs draws inp outp p => do
    let r ← ipNaptForward d now pcbs draws inp outp p.packet
    return (r.data,.forwarded r.packet r.err r.unreach)
  | .portmapAdd proto maddr mport daddr dport =>
    let (d,result) := ipPortmapAdd d proto maddr mport daddr dport
    .ok (d,.done result)
  | .portmapRemove proto mport =>
    let (d,result) := ipPortmapRemove d proto mport
    .ok (d,.done result)

structure System where
  clock : Nat
  data : NaptData

def sysNow (clock : Nat) : UInt32 := UInt32.ofNat clock

structure Deed where
  now : Nat
  event : Event
  reply : Reply

def Step (s : System) (x : Deed) (next : System) : Prop :=
  s.clock ≤ x.now ∧ next.clock = x.now ∧ perform s.data (sysNow x.now) x.event = .ok (next.data,x.reply)

def Run (natMax : UInt16) (portmapMax : UInt8) (past : List Deed) (s : System) : Prop :=
  ∃ calloc start, ipNaptInit none natMax portmapMax calloc = .ok (.ok,some start.data) ∧ Runs Step start past s

def execute (s : System) : List (Nat × Event) → Except Fault (System × List Deed)
  | [] => .ok (s,[])
  | (now,event) :: rest => do
    let (data,reply) ← perform s.data (sysNow now) event
    let (s,deeds) ← execute ⟨now,data⟩ rest
    return (s,⟨now,event,reply⟩ :: deeds)

inductive Changes (d : NaptData) (a : Sessions) (now : UInt32) : Event → Reply → NaptData → Sessions → Prop where
  | received (outcome : Received d a now p.packet a' p') (fixed : Fixed d d') :
      Changes d a now (.recv p) (.received p') d' a'
  | forwarded (outcome : ForwardedAs d a now inp outp p.packet a' p' err) (fixed : Fixed d d') :
      Changes d a now (.forward pcbs draws inp outp p) (.forwarded p' err unreach) d' a'
  | mapped (ran : ipPortmapAdd d proto maddr mport daddr dport = (d',result)) :
      Changes d a now (.portmapAdd proto maddr mport daddr dport) (.done result) d' a
  | unmapped (ran : ipPortmapRemove d proto mport = (d',result)) :
      Changes d a now (.portmapRemove proto mport) (.done result) d' a

def Remapped (before after : NaptData) : Prop := ∃ table, after = {before with portmapTable := table}

theorem portmapAdd_remapped (ran : ipPortmapAdd d proto maddr mport daddr dport = (d',result)) : Remapped d d' := by
  cases ran
  exact ⟨_,rfl⟩

theorem portmapRemove_remapped (ran : ipPortmapRemove d proto mport = (d',result)) : Remapped d d' := by
  unfold ipPortmapRemove at ran
  split at ran
  · cases ran
    exact ⟨d.portmapTable,rfl⟩
  · cases ran
    exact ⟨_,rfl⟩

theorem Represents.remapped (rep : Represents d a) (remapped : Remapped d d') : Represents d' a := by
  obtain ⟨table,same⟩ := remapped
  subst same
  exact ⟨rep.shape,rep.stored,rep.covers,rep.tcp,rep.udp,rep.icmp⟩

-- An event goes through, unless the random numbers it was given do not do.
theorem perform_ends (rep : Represents d a) (now : UInt32) (event : Event) :
    perform d now event = .error .draws ∨
    ∃ d' reply a', perform d now event = .ok (d',reply) ∧ Changes d a now event reply d' a' ∧ Represents d' a' := by
  cases event with
  | recv p =>
    obtain ⟨d',a',p',ran,outcome,rep',fixed⟩ := recv_refines rep now p.packet
    refine .inr ⟨d',.received p',a',?_,.received outcome fixed,rep'⟩
    simp only [perform,ran,bind,Except.bind,pure,Except.pure]
  | forward pcbs draws inp outp p =>
    cases forward_refines rep now pcbs draws inp outp p.packet with
    | inl stuck =>
      left
      simp only [perform,stuck.1,bind,Except.bind]
    | inr ended =>
      obtain ⟨r,a',ran,outcome,rep',fixed⟩ := ended
      refine .inr ⟨r.data,.forwarded r.packet r.err r.unreach,a',?_,.forwarded outcome fixed,rep'⟩
      simp only [perform,ran,bind,Except.bind,pure,Except.pure]
  | portmapAdd proto maddr mport daddr dport =>
    exact .inr ⟨_,_,a,rfl,.mapped rfl,rep.remapped (portmapAdd_remapped rfl)⟩
  | portmapRemove proto mport =>
    exact .inr ⟨_,_,a,rfl,.unmapped rfl,rep.remapped (portmapRemove_remapped rfl)⟩

theorem perform_changes (rep : Represents d a) (ran : perform d now event = .ok (d',reply)) :
    ∃ a', Changes d a now event reply d' a' ∧ Represents d' a' := by
  cases perform_ends rep now event with
  | inl stuck => rw [stuck] at ran; cases ran
  | inr ended =>
    obtain ⟨d1,reply1,a',ran1,changes,rep'⟩ := ended
    rw [ran] at ran1
    cases ran1
    exact ⟨a',changes,rep'⟩

theorem Changes.coherent (distinct : a.slots.Nodup) (coherent : Coherent a.flows)
    (changes : Changes d a now event reply d' a') : Coherent a'.flows := by
  cases changes with
  | received outcome => exact outcome.coherent coherent
  | forwarded outcome => exact outcome.coherent distinct coherent
  | mapped => exact coherent
  | unmapped => exact coherent

theorem Changes.naptMax (changes : Changes d a now event reply d' a') : d'.naptMax = d.naptMax := by
  cases changes with
  | received _ fixed => exact fixed.2
  | forwarded _ fixed => exact fixed.2
  | mapped ran =>
    obtain ⟨table,same⟩ := portmapAdd_remapped ran
    rw [same]
  | unmapped ran =>
    obtain ⟨table,same⟩ := portmapRemove_remapped ran
    rw [same]

structure Sound (natMax : UInt16) (d : NaptData) (a : Sessions) : Prop where
  represents : Represents d a
  coherent : Coherent a.flows
  size : d.naptMax = natMax.toNat

theorem Sound.step (sound : Sound natMax s.data a) (step : Step s x next) :
    ∃ a', Changes s.data a (sysNow x.now) x.event x.reply next.data a' ∧ Sound natMax next.data a' := by
  obtain ⟨a',changes,rep⟩ := perform_changes sound.represents step.2.2
  exact ⟨a',changes,rep,changes.coherent sound.represents.slots_nodup sound.coherent,changes.naptMax.trans sound.size⟩

theorem empty_sound (portmapMax : UInt8) (some : 1 ≤ natMax) :
    Sound natMax (emptyTables natMax portmapMax) ⟨[],List.range natMax.toNat⟩ := by
  refine ⟨empty_represents portmapMax some,⟨List.Pairwise.nil,List.Pairwise.nil,?_⟩,rfl⟩
  intro f member
  cases member

theorem runs_sound (sound : Sound natMax start.data a) (path : Runs Step start past s) :
    ∃ a', Sound natMax s.data a' := by
  refine path.keeps (I:=fun s => ∃ a, Sound natMax s.data a) ⟨a,sound⟩ ?_
  intro s x next held step
  obtain ⟨a,sound⟩ := held
  obtain ⟨a',_,after⟩ := sound.step step
  exact ⟨a',after⟩

theorem run_sound (run : Run natMax portmapMax past s) : ∃ a, Sound natMax s.data a := by
  obtain ⟨calloc,start,ran,path⟩ := run
  obtain ⟨some,same⟩ := init_tables ran
  exact runs_sound (same ▸ empty_sound portmapMax some) path

theorem execute_runs (ran : execute start events = .ok (s,deeds))
    (ordered : (start.clock :: events.map Prod.fst).Pairwise (· ≤ ·)) : Runs Step start deeds s := by
  induction events generalizing start deeds with
  | nil =>
    cases ran
    exact .nil
  | cons head rest ih =>
    obtain ⟨now,event⟩ := head
    unfold execute at ran
    obtain ⟨⟨data,reply⟩,performed,ran⟩ := ok_bind.mp ran
    obtain ⟨⟨s',later⟩,onward,ran⟩ := ok_bind.mp ran
    cases ran
    obtain ⟨ahead,ordered⟩ := List.pairwise_cons.mp ordered
    have first : Step start ⟨now,event,reply⟩ ⟨now,data⟩ := ⟨ahead now (by simp),rfl,performed⟩
    exact (Runs.single first).append (ih onward ordered)

theorem execute_events (ran : execute start events = .ok (s,deeds)) :
    deeds.map (fun x => (x.now,x.event)) = events := by
  induction events generalizing start deeds with
  | nil =>
    cases ran
    rfl
  | cons head rest ih =>
    obtain ⟨now,event⟩ := head
    unfold execute at ran
    obtain ⟨⟨data,reply⟩,_,ran⟩ := ok_bind.mp ran
    obtain ⟨⟨s',later⟩,onward,ran⟩ := ok_bind.mp ran
    cases ran
    rw [List.map_cons,ih onward]

def Reply.sent : Reply → Option (Err × UInt32 × UInt16)
  | .forwarded p err _ => some (err,iphSrc p,sender p)
  | _ => none

def arrives (start : System) (events : List (Nat × Event)) (asked : System → List Deed → Bool) : Bool :=
  match execute start events with
  | .ok (s,deeds) => asked s deeds
  | .error _ => false

theorem arrives_runs (start : System) (events : List (Nat × Event)) (asked : System → List Deed → Bool)
    (computed : arrives start events asked = true)
    (ordered : (start.clock :: events.map Prod.fst).Pairwise (· ≤ ·)) :
    ∃ s deeds, Runs Step start deeds s ∧ execute start events = .ok (s,deeds) ∧ asked s deeds = true := by
  unfold arrives at computed
  cases ran : execute start events with
  | error fault => simp [ran] at computed
  | ok result =>
    obtain ⟨s,deeds⟩ := result
    rw [ran] at computed
    exact ⟨s,deeds,execute_runs ran ordered,rfl,computed⟩

def tries (s : System) (now : Nat) (event : Event) (asked : System → Reply → Bool) : Bool :=
  match perform s.data (sysNow now) event with
  | .ok (data,reply) => asked ⟨now,data⟩ reply
  | .error _ => false

theorem tries_step (s : System) (now : Nat) (event : Event) (asked : System → Reply → Bool)
    (computed : tries s now event asked = true) (ahead : s.clock ≤ now) :
    ∃ next reply, Step s ⟨now,event,reply⟩ next ∧ next.clock = now ∧ asked next reply = true := by
  unfold tries at computed
  cases ran : perform s.data (sysNow now) event with
  | error fault => simp [ran] at computed
  | ok result =>
    obtain ⟨data,reply⟩ := result
    rw [ran] at computed
    exact ⟨⟨now,data⟩,reply,⟨ahead,rfl,ran⟩,rfl,computed⟩

def lan : Netif := ⟨true,0x0104a8c0⟩
def wan : Netif := ⟨false,0x0200000a⟩
def quiet : LocalPcbs := ⟨[],[]⟩

def fresh (natMax : UInt16) (portmapMax : UInt8) : System := ⟨0,emptyTables natMax portmapMax⟩

theorem fresh_run (some : natMax ≠ 0) (path : Runs Step (fresh natMax portmapMax) past s) :
    Run natMax portmapMax past s := by
  refine ⟨⟨true,true,true⟩,fresh natMax portmapMax,?_,path⟩
  unfold ipNaptInit
  simp [some,fresh]

end NonosLinkLayer.Napt
