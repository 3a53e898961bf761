import NonosLinkLayer.Glue.Reception

namespace NonosLinkLayer.Glue
open HeapList Transitions

def GitPbuf.Glued (b : GitPbuf) : Prop := b.flags &&& PBUF_FLAG_GLUED ≠ 0

-- With a deed of the two stacks go the bytes of an allocation or a write of lwIP. The
-- blob may write into what it was handed, as long as it has not freed it.
inductive Act where
  | deed (event : Event) (bytes : List UInt8)
  | scribble (f : Flight) (bytes : List UInt8)
  | rxAlloc (length : UInt16) (type : UInt8) (pvPortMalloc : Nat → Option Ptr) (frame : List UInt8)
  | rxWrite (p : Ptr) (x : Received)
  | rxDrop (p : Ptr)
  | received (p : Ptr) (alloc : Option (Ptr × Ptr))

-- The bit of PBUF_FLAG_GLUED is nobody else's.
def Respects (s : World) : Event → Prop
  | .alloc _ b => ¬ b.Glued
  | .write p c => ∀ b, s.glue.pbufs p = some b → (c.Glued ↔ b.Glued)
  | _ => True

namespace Link

def written (bytes : List UInt8) (before : Ptr → List UInt8) : Event → Ptr → List UInt8
  | .alloc p _ => Function.update before p bytes
  | .write p _ => Function.update before p bytes
  | _ => before

def sent (content before : Ptr → List UInt8) : Event → Ptr → List UInt8
  | .send _ p _ _ f => Function.update before f.pbuf (content p)
  | _ => before

end Link

inductive Moves : Link → Act → Link → Prop where
  | deed {s : Link} {event : Event} {world : World} {bytes : List UInt8} (deed : s.world.Limited event world)
      (respects : Respects s.world event) :
      Moves s (.deed event bytes) {s with
        world
        content := Link.sent s.content (Link.written bytes s.content event) event
        seen := Link.written bytes s.seen event
        handed := Link.sent s.content s.handed event}
  | scribble {s : Link} {f : Flight} {bytes : List UInt8} (handed : f ∈ s.world.flights) :
      Moves s (.scribble f bytes)
        {s with content := Function.update s.content f.pbuf bytes,handed := Function.update s.handed f.pbuf bytes}
  | rxAlloc {s : Link} {length : UInt16} {type : UInt8} {pvPortMalloc : Nat → Option Ptr} {p : Ptr} {b : Pbuf} {frame : List UInt8}
      (run : pbufAlloc .raw length type pvPortMalloc = some (p,b)) (room : length.toNat ≤ frame.length) :
      Moves s (.rxAlloc length type pvPortMalloc frame) {s with rx := Function.update s.rx p (some ⟨b,frame⟩)}
  | rxWrite {s : Link} {p : Ptr} {x y : Received} (here : s.rx p = some y) (single : x.Single) :
      Moves s (.rxWrite p x) {s with rx := Function.update s.rx p (some x)}
  | rxDrop {s next : Link} {p : Ptr} {answer : UInt8} (run : s.recvPbufFree p = some (next,answer)) : Moves s (.rxDrop p) next
  | received {s next : Link} {p q : Ptr} {alloc : Option (Ptr × Ptr)}
      (offered : ∀ q data, alloc = some (q,data) → q ≠ null ∧ s.world.glue.pbufs q = none)
      (run : s.ethernetInput p alloc = some (next,q)) : Moves s (.received p alloc) next

structure Kin (g next : GlueState) : Prop where
  pbufs : ∀ q c, next.pbufs q = some c → ∃ b, g.pbufs q = some b ∧ c.serial = b.serial ∧ (c.Glued ↔ b.Glued)
  clones : next.clones = g.clones
  issued : next.issued = g.issued

structure Stems (g next : GlueState) : Prop where
  pbufs : ∀ q c, next.pbufs q = some c →
    (∃ b, g.pbufs q = some b ∧ c.serial = b.serial ∧ (c.Glued ↔ b.Glued)) ∨ (g.pbufs q = none ∧ ¬ c.Glued ∧ c.serial = g.issued)
  clones : ∀ n ∈ next.clones, n ∈ g.clones ∨ n = g.issued
  issued : g.issued ≤ next.issued

section Places
variable {g mid next : GlueState} {own count : Ptr → Nat} {flights : List Flight} {p q w : Ptr} {b c : GitPbuf} {num : Fin 2}
  {clone : Option (Ptr × Ptr)} {malloc : Option Given} {err : Err}

theorem Kin.refl (g : GlueState) : Kin g g := ⟨fun _ b there => ⟨b,there,rfl,Iff.rfl⟩,rfl,rfl⟩

theorem Kin.trans (one : Kin g mid) (two : Kin mid next) : Kin g next := by
  refine ⟨?_,two.clones.trans one.clones,two.issued.trans one.issued⟩
  intro q d there
  obtain ⟨c,there',serial,glued⟩ := two.pbufs q d there
  obtain ⟨b,there'',serial',glued'⟩ := one.pbufs q c there'
  exact ⟨b,there'',serial.trans serial',glued.trans glued'⟩

theorem Kin.stems (kin : Kin g next) : Stems g next :=
  ⟨fun q c there => .inl (kin.pbufs q c there),fun _ member => .inl (kin.clones ▸ member),Nat.le_of_eq kin.issued.symm⟩

theorem Stems.kin (one : Stems g mid) (two : Kin mid next) : Stems g next := by
  refine ⟨?_,fun n member => one.clones n (two.clones ▸ member),two.issued ▸ one.issued⟩
  intro q d there
  obtain ⟨c,there',serial,glued⟩ := two.pbufs q d there
  rcases one.pbufs q c there' with ⟨b,there'',serial',glued'⟩ | ⟨gone,plain,fresh⟩
  · exact .inl ⟨b,there'',serial.trans serial',glued.trans glued'⟩
  · exact .inr ⟨gone,fun bit => plain (glued.mp bit),serial.trans fresh⟩

theorem Kin.updated (there : g.pbufs p = some b) (o : Option GitPbuf) (same : ∀ c, o = some c → c.serial = b.serial ∧ (c.Glued ↔ b.Glued))
    (pbufs : next.pbufs = Function.update g.pbufs p o) (clones : next.clones = g.clones) (issued : next.issued = g.issued) : Kin g next := by
  refine ⟨?_,clones,issued⟩
  intro q c found
  rw [pbufs] at found
  by_cases here : q = p
  · subst q
    rw [Function.update_self] at found
    exact ⟨b,there,same c found⟩
  · rw [Function.update_of_ne here] at found
    exact ⟨c,found,rfl,Iff.rfl⟩

theorem unref_glued (left : GlueState.unref b = some c) : c.Glued ↔ b.Glued := by
  unfold GlueState.unref at left
  split at left <;> cases left
  rfl

theorem Kin.unref (there : g.pbufs p = some b) (pbufs : next.pbufs = Function.update g.pbufs p (GlueState.unref b))
    (clones : next.clones = g.clones) (issued : next.issued = g.issued) : Kin g next :=
  .updated there _ (fun _ left => ⟨unref_serial left,unref_glued left⟩) pbufs clones issued

theorem pbufFree_kin (run : g.pbufFree p = some next) : Kin g next := by
  unfold GlueState.pbufFree at run
  obtain ⟨b,there,run⟩ := Option.bind_eq_some_iff.mp run
  cases run
  exact .unref there rfl rfl rfl

theorem pbufRef_kin (run : g.pbufRef p = some next) : Kin g next := by
  unfold GlueState.pbufRef at run
  obtain ⟨b,there,run⟩ := Option.bind_eq_some_iff.mp run
  cases run
  refine .updated there _ ?_ rfl rfl rfl
  intro c same
  cases same
  exact ⟨rfl,Iff.rfl⟩

theorem answered_kin {answer : GlueErr} (run : g.answered p answer = some (next,err)) : Kin g next := by
  unfold GlueState.answered at run
  split at run
  · obtain ⟨mid,freed,run⟩ := Option.bind_eq_some_iff.mp run
    cases run
    exact pbufFree_kin freed
  · cases run
    exact .refl g

theorem glue2esp_kin {data : Ptr} {size : UInt16} {sending : Sending GlueErr}
    (run : g.glue2espLinkoutput num p data size malloc = some (next,sending)) : Kin g next := by
  have pooled : ∀ pool, Kin g {g with pool} := fun _ => ⟨fun _ b there => ⟨b,there,rfl,Iff.rfl⟩,rfl,rfl⟩
  unfold GlueState.glue2espLinkoutput at run
  split at run
  · cases run
    exact .refl g
  · split at run
    · cases run
      exact .refl g
    · obtain ⟨⟨pool,w⟩,_,run⟩ := Option.bind_eq_some_iff.mp run
      dsimp only at run
      split at run
      · cases run
        exact pooled _
      · obtain ⟨x,_,run⟩ := Option.bind_eq_some_iff.mp run
        split at run
        · obtain ⟨heap,_,run⟩ := Option.bind_eq_some_iff.mp run
          cases run
          exact pooled _
        · cases run

theorem handOver_kin {sending : Sending Err} (run : g.handOver num p malloc = some (next,q,sending)) : Kin g next ∧ q = p := by
  unfold GlueState.handOver at run
  obtain ⟨b,_,run⟩ := Option.bind_eq_some_iff.mp run
  obtain ⟨⟨mid,sending'⟩,handed,run⟩ := Option.bind_eq_some_iff.mp run
  have kin := glue2esp_kin handed
  cases sending' with
  | failed err =>
    obtain ⟨⟨last,err'⟩,answer,run⟩ := Option.bind_eq_some_iff.mp run
    cases run
    exact ⟨kin.trans (answered_kin answer),rfl⟩
  | waits w =>
    cases run
    exact ⟨kin,rfl⟩

theorem copied_glued (glued : b.Glued) : GlueState.copied b = true := by simp [GlueState.copied,show b.flags &&& PBUF_FLAG_GLUED ≠ 0 from glued]

theorem glued_glued {payload : Ptr} {len : UInt16} {ref : UInt8} {n : Nat} : GitPbuf.Glued ⟨null,payload,len,len,PBUF_FLAG_GLUED,ref,n⟩ := by
  simp [GitPbuf.Glued,PBUF_FLAG_GLUED]

theorem clone_plain {payload : Ptr} {totLen : UInt16} {n : Nat} : ¬ GitPbuf.Glued ⟨null,payload,totLen,totLen,0,1,n⟩ := by
  simp [GitPbuf.Glued,PBUF_FLAG_GLUED]

theorem clone_stems (free : g.pbufs q = none) (b : GitPbuf) (payload : Ptr) : Stems g (g.pbufClone b q payload) := by
  refine ⟨?_,?_,Nat.le_succ _⟩
  · intro x c found
    by_cases here : x = q
    · subst x
      cases (Function.update_self ..).symm.trans found
      exact .inr ⟨free,clone_plain,rfl⟩
    · exact .inl ⟨c,(Function.update_of_ne here _ _).symm.trans found,rfl,Iff.rfl⟩
  · intro n member
    exact (List.mem_cons.mp member).symm.imp_right id

-- What is handed over is the packet itself, which is then no frame, or a clone
-- at a place that was free.
theorem newLinkoutput_stems {sending : Sending Err} (offered : ∀ q payload, clone = some (q,payload) → q ≠ null ∧ g.pbufs q = none)
    (run : g.newLinkoutput num p clone malloc = some (next,q,sending)) :
    Stems g next ∧ ∀ w, sending = .waits w → ∃ b, g.pbufs p = some b ∧
      (GlueState.copied b = false ∧ q = p ∨ GlueState.copied b = true ∧ ∃ payload, clone = some (q,payload)) := by
  unfold GlueState.newLinkoutput at run
  obtain ⟨b,there,run⟩ := Option.bind_eq_some_iff.mp run
  cases copied : GlueState.copied b with
  | true =>
    rw [if_pos copied] at run
    cases place : clone with
    | none =>
      rw [place] at run
      cases run
      exact ⟨(Kin.refl g).stems,fun w waits => by cases waits⟩
    | some place' =>
      obtain ⟨x,payload⟩ := place'
      rw [place] at run
      obtain ⟨kin,rfl⟩ := handOver_kin run
      exact ⟨(clone_stems (offered q payload place).2 b payload).kin kin,fun _ _ => ⟨b,there,.inr ⟨copied,payload,rfl⟩⟩⟩
  | false =>
    rw [if_neg (by simp [copied])] at run
    obtain ⟨mid,reffed,run⟩ := Option.bind_eq_some_iff.mp run
    obtain ⟨kin,rfl⟩ := handOver_kin run
    exact ⟨((pbufRef_kin reffed).trans kin).stems,fun _ _ => ⟨b,there,.inl ⟨copied,rfl⟩⟩⟩

theorem linkoutputReturned_kin {answer : Int} (run : g.linkoutputReturned w p answer = some (next,err)) : Kin g next := by
  have pooled : ∀ pool, Kin g {g with pool} := fun _ => ⟨fun _ b there => ⟨b,there,rfl,Iff.rfl⟩,rfl,rfl⟩
  unfold GlueState.linkoutputReturned at run
  dsimp only at run
  split at run
  · obtain ⟨pool,_,run⟩ := Option.bind_eq_some_iff.mp run
    exact (pooled pool).trans (answered_kin run)
  · exact (pooled g.pool).trans (answered_kin run)

theorem espPbufRef_kin (run : g.espPbufRef w = some next) : Kin g next := by
  unfold GlueState.espPbufRef at run
  obtain ⟨x,_,run⟩ := Option.bind_eq_some_iff.mp run
  obtain ⟨heap,_,run⟩ := Option.bind_eq_some_iff.mp run
  cases run
  exact ⟨fun _ b there => ⟨b,there,rfl,Iff.rfl⟩,rfl,rfl⟩

theorem espPbufFree_kin (run : g.espPbufFree w = some next) : Kin g next := by
  unfold GlueState.espPbufFree at run
  obtain ⟨x,_,run⟩ := Option.bind_eq_some_iff.mp run
  split at run
  · obtain ⟨mid,freed,run⟩ := Option.bind_eq_some_iff.mp run
    obtain ⟨pool,_,run⟩ := Option.bind_eq_some_iff.mp run
    cases run
    exact (pbufFree_kin freed).trans ⟨fun _ b there => ⟨b,there,rfl,Iff.rfl⟩,rfl,rfl⟩
  · cases run

end Places

section Deeds
variable {s next : World} {event : Event} {f : Flight}

theorem deed_stems (deed : Deed s event next) (respects : Respects s event) : Stems s.glue next.glue := by
  cases deed with
  | send holds offered run => exact (newLinkoutput_stems offered.clone run).1
  | refused holds offered run => exact (newLinkoutput_stems offered.clone run).1
  | returned called kept run => exact (linkoutputReturned_kin run).stems
  | reffed handed run => exact (espPbufRef_kin run).stems
  | completed handed run => exact (espPbufFree_kin run).stems
  | alloc real fresh =>
    rename_i p b
    refine ⟨?_,fun _ member => .inl member,Nat.le_succ _⟩
    intro q c found
    by_cases here : q = p
    · subst q
      cases (Function.update_self ..).symm.trans found
      exact .inr ⟨fresh,respects,rfl⟩
    · exact .inl ⟨c,(Function.update_of_ne here _ _).symm.trans found,rfl,Iff.rfl⟩
  | ref holds run => exact (pbufRef_kin run).stems
  | free holds there =>
    apply Kin.stems
    exact .unref there rfl rfl rfl
  | write holds there =>
    apply Kin.stems
    refine .updated there _ ?_ rfl rfl rfl
    intro c same
    cases same
    exact ⟨rfl,respects _ there⟩
  | netif => exact (Kin.stems ⟨fun _ b there => ⟨b,there,rfl,Iff.rfl⟩,rfl,rfl⟩)

theorem deed_flights (deed : Deed s event next) (later : f ∈ next.flights) :
    f ∈ s.flights ∨ ∃ num p clone malloc, event = .send num p clone malloc f := by
  cases deed with
  | send => exact (List.mem_cons.mp later).symm.imp_right fun same => ⟨_,_,_,_,by rw [same]⟩
  | returned =>
    dsimp only at later
    split at later
    · exact .inl later
    · exact .inl (List.mem_of_mem_erase later)
  | completed => exact .inl (List.mem_of_mem_erase later)
  | refused | reffed | alloc | ref | free | write | netif => exact .inl later

theorem send_place {num : Fin 2} {p : Ptr} {clone : Option (Ptr × Ptr)} {malloc : Option Given}
    (deed : Deed s (.send num p clone malloc f) next) :
    ∃ b, s.glue.pbufs p = some b ∧ (¬ b.Glued ∧ f.pbuf = p ∨ s.glue.pbufs f.pbuf = none) := by
  cases deed with
  | send holds offered run =>
    obtain ⟨b,there,⟨whole,same⟩ | ⟨_,payload,place⟩⟩ := (newLinkoutput_stems offered.clone run).2 _ rfl
    · exact ⟨b,there,.inl ⟨fun glued => by simp [copied_glued glued] at whole,same⟩⟩
    · exact ⟨b,there,.inr (offered.clone _ payload place).2⟩

theorem clone_unheld {q : Ptr} {b : GitPbuf} (owned : s.InOrder) (there : s.glue.pbufs q = some b) (cloned : b.serial ∈ s.glue.clones) :
    s.own q = 0 := by
  rcases owned.ledger.clones _ cloned with ⟨p,c,found,serial,_,unheld,_⟩ | ⟨gone,_⟩
  · rw [←owned.ledger.single p q c b found there serial]
    exact unheld
  · exact absurd rfl (gone q b there)

theorem World.InOrder.allocated {q : Ptr} (order : s.InOrder) (real : q ≠ null) (fresh : s.glue.pbufs q = none) (b : GitPbuf) :
    (s.allocated q b).InOrder := by
  refine ⟨World.deed_owned order (.alloc real fresh),fun p => ?_⟩
  obtain ⟨_,zero⟩ := order.balanced.fresh fresh
  change Function.update s.own q 1 p + holding s.flights p ≤ 255
  by_cases here : p = q
  · rw [here,Function.update_self,zero]
    decide
  · rw [Function.update_of_ne here]
    exact order.counted p

end Deeds

namespace Link

-- What the blob has been handed is no frame, so that it writes into none; and a clone it
-- has been handed is what lwIP sent or what the blob itself made of it.
structure Apart (s : Link) : Prop where
  sent : ∀ f ∈ s.world.flights, ∀ b, s.world.glue.pbufs f.pbuf = some b → ¬ b.Glued
  frames : ∀ p b, s.world.glue.pbufs p = some b → b.Glued → s.content p = s.seen p
  copies : ∀ f ∈ s.world.flights, ∀ b, s.world.glue.pbufs f.pbuf = some b → b.serial ∈ s.world.glue.clones →
    s.content f.pbuf = s.handed f.pbuf
  single : ∀ p x, s.rx p = some x → x.Single

structure InOrder (s : Link) : Prop where
  world : s.world.InOrder
  apart : s.Apart

variable {s next : Link} {act : Act} {p q : Ptr}

theorem written_same {event : Event} {bytes : List UInt8} {one two : Ptr → List UInt8} (same : one q = two q) :
    written bytes one event q = written bytes two event q := by
  cases event with
  | alloc p b | write p c =>
    by_cases here : q = p
    · simp [written,here]
    · simp [written,here,same]
  | _ => exact same

section Deed
variable {event : Event} {world : World} {bytes : List UInt8}

theorem deed_older {f : Flight} {c : GitPbuf} (owned : s.world.InOrder) (stems : Stems s.world.glue world.glue)
    (handed : f ∈ s.world.flights) (there : world.glue.pbufs f.pbuf = some c) :
    ∃ b, s.world.glue.pbufs f.pbuf = some b ∧ c.serial = b.serial ∧ (c.Glued ↔ b.Glued) := by
  rcases stems.pbufs f.pbuf c there with older | ⟨gone,_⟩
  · exact older
  · obtain ⟨b,alive⟩ := owned.there handed
    cases gone.symm.trans alive

theorem deed_sent (order : s.InOrder) (deed : Glue.Deed s.world event world) (respects : Respects s.world event) {f : Flight}
    (handed : f ∈ world.flights) {c : GitPbuf} (there : world.glue.pbufs f.pbuf = some c) : ¬ c.Glued := by
  have stems := deed_stems deed respects
  rcases deed_flights deed handed with old | ⟨num,p,clone,malloc,rfl⟩
  · obtain ⟨b,there',_,glued⟩ := deed_older order.world stems old there
    exact fun bit => order.apart.sent f old b there' (glued.mp bit)
  · obtain ⟨b,there',place⟩ := send_place deed
    rcases stems.pbufs f.pbuf c there with ⟨b',found,_,glued⟩ | ⟨_,plain,_⟩
    · rcases place with ⟨plain,same⟩ | free
      · rw [same] at found
        cases found.symm.trans there'
        exact fun bit => plain (glued.mp bit)
      · cases free.symm.trans found
    · exact plain

theorem deed_frames (order : s.InOrder) (deed : Glue.Deed s.world event world) (respects : Respects s.world event) {c : GitPbuf}
    (there : world.glue.pbufs p = some c) (glued : c.Glued) :
    sent s.content (written bytes s.content event) event p = written bytes s.seen event p := by
  rcases (deed_stems deed respects).pbufs p c there with ⟨b,there',_,same⟩ | ⟨_,plain,_⟩
  · have frame := order.apart.frames p b there' (same.mp glued)
    have still : written bytes s.content event p = written bytes s.seen event p := written_same frame
    cases event with
    | send num q clone malloc f =>
      have elsewhere : p ≠ f.pbuf := by
        intro here
        obtain ⟨b',found,⟨plain,place⟩ | free⟩ := send_place deed
        · rw [here,place] at there'
          cases found.symm.trans there'
          exact plain (same.mp glued)
        · rw [←here] at free
          cases free.symm.trans there'
      exact (Function.update_of_ne elsewhere _ _).trans still
    | _ => exact still
  · exact absurd glued plain

theorem deed_copies (order : s.InOrder) (deed : Glue.Deed s.world event world) (respects : Respects s.world event) {f : Flight}
    (handed : f ∈ world.flights) {c : GitPbuf} (there : world.glue.pbufs f.pbuf = some c) (cloned : c.serial ∈ world.glue.clones) :
    sent s.content (written bytes s.content event) event f.pbuf = sent s.content s.handed event f.pbuf := by
  have stems := deed_stems deed respects
  have before : f ∈ s.world.flights → ∃ b, s.world.glue.pbufs f.pbuf = some b ∧ b.serial ∈ s.world.glue.clones := by
    intro old
    obtain ⟨b,there',serial,_⟩ := deed_older order.world stems old there
    rcases stems.clones _ cloned with member | new
    · exact ⟨b,there',serial ▸ member⟩
    · exact absurd (order.world.ledger.issued _ b there') (by omega)
  have kept : f ∈ s.world.flights → s.content f.pbuf = s.handed f.pbuf := by
    intro old
    obtain ⟨b,there',member⟩ := before old
    exact order.apart.copies f old b there' member
  rcases deed_flights deed handed with old | ⟨num,p,clone,malloc,rfl⟩
  · have unheld : s.world.own f.pbuf = 0 := by
      obtain ⟨b,there',member⟩ := before old
      exact clone_unheld order.world there' member
    obtain ⟨b,alive⟩ := order.world.there old
    cases event with
    | send num p clone malloc f' =>
      by_cases here : f.pbuf = f'.pbuf
      · simp [sent,here]
      · simp [sent,here,written,kept old]
    | alloc p b' =>
      have elsewhere : f.pbuf ≠ p := by
        intro here
        cases deed with
        | alloc real fresh => simp [←here,alive] at fresh
      simp [sent,written,elsewhere,kept old]
    | write p c' =>
      have elsewhere : f.pbuf ≠ p := by
        intro here
        cases deed with
        | write holds there => simp [←here,unheld] at holds
      simp [sent,written,elsewhere,kept old]
    | _ => exact kept old
  · simp [sent]

theorem deed_seen (deed : Glue.Deed s.world event world) (quiet : ∀ c, event ≠ .write p c) {b : GitPbuf}
    (there : s.world.glue.pbufs p = some b) : written bytes s.seen event p = s.seen p := by
  cases event with
  | alloc q c =>
    have elsewhere : p ≠ q := by
      intro here
      cases deed with
      | alloc real fresh => simp [←here,there] at fresh
    simp [written,elsewhere]
  | write q c =>
    have elsewhere : p ≠ q := by
      intro here
      exact quiet c (by rw [here])
    simp [written,elsewhere]
  | _ => rfl

end Deed

theorem pbufAlloc_single {layer : PbufLayer} {length : UInt16} {type : UInt8} {pvPortMalloc : Nat → Option Ptr} {b : Pbuf}
    {frame : List UInt8} (run : pbufAlloc layer length type pvPortMalloc = some (p,b)) (room : length.toNat ≤ frame.length) :
    Received.Single ⟨b,frame⟩ := by
  unfold pbufAlloc at run
  split_ifs at run with ram ref
  · obtain ⟨q,_,same⟩ := Option.map_eq_some_iff.mp run
    cases same
    exact ⟨rfl,rfl,.inl ram.2,rfl,room⟩
  · obtain ⟨q,_,same⟩ := Option.map_eq_some_iff.mp run
    cases same
    exact ⟨rfl,rfl,.inr ref.2,rfl,room⟩

theorem Apart.rx_updated (apart : s.Apart) {o : Option Received} (single : ∀ x, o = some x → x.Single) {recycled : List Ptr} :
    Apart {s with rx := Function.update s.rx p o,recycled} := by
  refine ⟨apart.sent,apart.frames,apart.copies,?_⟩
  intro q x found
  by_cases here : q = p
  · subst q
    exact single x (by simpa using found)
  · exact apart.single q x (by simpa [here] using found)

theorem InOrder.scribbled (order : s.InOrder) {f : Flight} (handed : f ∈ s.world.flights) (bytes : List UInt8) :
    InOrder {s with content := Function.update s.content f.pbuf bytes,handed := Function.update s.handed f.pbuf bytes} := by
  refine ⟨order.world,order.apart.sent,?_,?_,order.apart.single⟩
  · intro p b there glued
    have elsewhere : p ≠ f.pbuf := by
      rintro rfl
      exact order.apart.sent f handed b there glued
    simpa [elsewhere] using order.apart.frames p b there glued
  · intro g member b there cloned
    by_cases here : g.pbuf = f.pbuf
    · simp [here]
    · simpa [here] using order.apart.copies g member b there cloned

theorem InOrder.taken (order : s.InOrder) (real : q ≠ null) (fresh : s.world.glue.pbufs q = none) (b : GitPbuf) (bytes : List UInt8) :
    InOrder {s with
      world := s.world.allocated q b,
      content := Function.update s.content q bytes,
      seen := Function.update s.seen q bytes} := by
  have elsewhere : ∀ p c, s.world.glue.pbufs p = some c → p ≠ q := by
    intro p c there here
    simp [here,fresh] at there
  have inFlight : ∀ f ∈ s.world.flights, f.pbuf ≠ q := by
    intro f handed
    obtain ⟨c,alive⟩ := order.world.there handed
    exact elsewhere f.pbuf c alive
  have before : ∀ p c, p ≠ q → (s.world.allocated q b).glue.pbufs p = some c → s.world.glue.pbufs p = some c := by
    intro p c apart there
    exact (Function.update_of_ne apart _ _).symm.trans there
  refine ⟨order.world.allocated real fresh b,?_,?_,?_,order.apart.single⟩
  · intro f handed c there
    exact order.apart.sent f handed c (before _ c (inFlight f handed) there)
  · intro p c there glued
    by_cases here : p = q
    · simp [here]
    · simpa [here] using order.apart.frames p c (before p c here there) glued
  · intro f handed c there cloned
    simpa [inFlight f handed] using order.apart.copies f handed c (before _ c (inFlight f handed) there) cloned

theorem moves_inOrder (order : s.InOrder) (move : Moves s act next) : next.InOrder := by
  cases move with
  | deed deed respects =>
    exact ⟨World.limited_inOrder order.world deed,fun f handed c there => deed_sent order deed.1 respects handed there,
      fun p c there glued => deed_frames order deed.1 respects there glued,
      fun f handed c there cloned => deed_copies order deed.1 respects handed there cloned,order.apart.single⟩
  | scribble handed => exact order.scribbled handed _
  | rxAlloc run room =>
    refine ⟨order.world,order.apart.rx_updated ?_⟩
    intro x same
    cases same
    exact pbufAlloc_single run room
  | rxWrite here single =>
    refine ⟨order.world,order.apart.rx_updated ?_⟩
    intro x same
    cases same
    exact single
  | rxDrop run =>
    obtain ⟨x,here⟩ := recvPbufFree_there run
    cases Option.some.inj ((recvPbufFree_single here (order.apart.single _ x here)).symm.trans run)
    exact ⟨order.world,order.apart.rx_updated fun _ same => by cases same⟩
  | received offered run =>
    rename_i p q alloc
    obtain ⟨x,here⟩ := ethernetInput_there run
    have single := order.apart.single p x here
    cases alloc with
    | none =>
      cases Option.some.inj ((ethernetInput_lost here single).symm.trans run)
      exact ⟨order.world,order.apart.rx_updated fun _ same => by cases same⟩
    | some place =>
      obtain ⟨real,fresh⟩ := offered place.1 place.2 rfl
      cases Option.some.inj ((ethernetInput_taken here single real place.2).symm.trans run)
      have taken := order.taken real fresh ⟨null,place.2,x.pbuf.len,x.pbuf.len,PBUF_FLAG_GLUED,1,0⟩
        (x.frame.take x.pbuf.len.toNat)
      exact ⟨taken.world,taken.apart.rx_updated fun _ same => by cases same⟩

theorem start_inOrder {heap : Heap PbufWrapper} (unused : ∀ p, heap.live p = false) (netif : Fin 2 → Option UInt8) :
    (start heap netif).InOrder :=
  ⟨World.start_inOrder unused netif,fun _ handed => absurd handed List.not_mem_nil,fun _ _ _ _ => rfl,
    fun _ handed => absurd handed List.not_mem_nil,fun _ _ here => absurd here.symm (Option.some_ne_none _)⟩

theorem runs_inOrder {acts : List Act} (order : s.InOrder) (path : Runs Moves s acts next) : next.InOrder :=
  path.keeps (I := InOrder) order moves_inOrder

theorem moves_kept (order : s.InOrder) (move : Moves s act next) (quiet : ∀ c bytes, act ≠ .deed (.write p c) bytes) {c : GitPbuf}
    (there : next.world.glue.pbufs p = some c) (old : c.serial < s.world.glue.issued) :
    ∃ b, s.world.glue.pbufs p = some b ∧ c.serial = b.serial ∧ (c.Glued ↔ b.Glued) ∧ next.seen p = s.seen p := by
  cases move with
  | deed deed respects =>
    rcases (deed_stems deed.1 respects).pbufs p c there with ⟨b,there',serial,glued⟩ | ⟨_,_,fresh⟩
    · refine ⟨b,there',serial,glued,deed_seen deed.1 ?_ there'⟩
      rintro c' rfl
      exact quiet c' _ rfl
    · omega
  | scribble | rxAlloc | rxWrite => exact ⟨c,there,rfl,Iff.rfl,rfl⟩
  | rxDrop run =>
    obtain ⟨x,here⟩ := recvPbufFree_there run
    cases Option.some.inj ((recvPbufFree_single here (order.apart.single _ x here)).symm.trans run)
    exact ⟨c,there,rfl,Iff.rfl,rfl⟩
  | received offered run =>
    rename_i place q alloc
    obtain ⟨x,here⟩ := ethernetInput_there run
    have single := order.apart.single place x here
    cases alloc with
    | none =>
      cases Option.some.inj ((ethernetInput_lost here single).symm.trans run)
      exact ⟨c,there,rfl,Iff.rfl,rfl⟩
    | some data =>
      obtain ⟨real,fresh⟩ := offered data.1 data.2 rfl
      cases Option.some.inj ((ethernetInput_taken here single real data.2).symm.trans run)
      by_cases new : p = data.1
      · subst p
        cases (Function.update_self ..).symm.trans there
        exact absurd old (Nat.lt_irrefl _)
      · exact ⟨c,(Function.update_of_ne new _ _).symm.trans there,rfl,Iff.rfl,Function.update_of_ne new _ _⟩

theorem moves_issued (order : s.InOrder) (move : Moves s act next) : s.world.glue.issued ≤ next.world.glue.issued := by
  cases move with
  | deed deed respects => exact (deed_stems deed.1 respects).issued
  | scribble | rxAlloc | rxWrite => exact Nat.le_refl _
  | rxDrop run =>
    obtain ⟨x,here⟩ := recvPbufFree_there run
    cases Option.some.inj ((recvPbufFree_single here (order.apart.single _ x here)).symm.trans run)
    exact Nat.le_refl _
  | received offered run =>
    rename_i place q alloc
    obtain ⟨x,here⟩ := ethernetInput_there run
    have single := order.apart.single place x here
    cases alloc with
    | none =>
      cases Option.some.inj ((ethernetInput_lost here single).symm.trans run)
      exact Nat.le_refl _
    | some data =>
      obtain ⟨real,_⟩ := offered data.1 data.2 rfl
      cases Option.some.inj ((ethernetInput_taken here single real data.2).symm.trans run)
      exact Nat.le_succ _

theorem runs_kept {acts : List Act} {b : GitPbuf} (order : s.InOrder) (there : s.world.glue.pbufs p = some b)
    (path : Runs Moves s acts next) (quiet : ∀ c bytes, Act.deed (.write p c) bytes ∉ acts) :
    s.world.glue.issued ≤ next.world.glue.issued ∧ ∀ c, next.world.glue.pbufs p = some c → c.serial = b.serial →
      (c.Glued ↔ b.Glued) ∧ next.seen p = s.seen p := by
  have older : b.serial < s.world.glue.issued := order.world.ledger.issued p b there
  induction path with
  | nil =>
    refine ⟨Nat.le_refl _,?_⟩
    intro c here _
    cases there.symm.trans here
    exact ⟨Iff.rfl,rfl⟩
  | step prior move ih =>
    obtain ⟨issued,kept⟩ := ih fun c bytes member => quiet c bytes (List.mem_append_left _ member)
    have middle := runs_inOrder order prior
    refine ⟨Nat.le_trans issued (moves_issued middle move),?_⟩
    intro c here serial
    obtain ⟨d,before,same,glued,seen⟩ := moves_kept middle move (fun c bytes write => quiet c bytes (by simp [write])) here (by omega)
    obtain ⟨glued',seen'⟩ := kept d before (same.symm.trans serial)
    exact ⟨glued.trans glued',seen.trans seen'⟩

-- The bytes of a frame are nobody's but lwIP's, whatever the blob does and whatever is
-- sent meanwhile.
theorem received_kept {acts : List Act} {b c : GitPbuf} (order : s.InOrder) (there : s.world.glue.pbufs p = some b) (frame : b.Glued)
    (path : Runs Moves s acts next) (quiet : ∀ c bytes, Act.deed (.write p c) bytes ∉ acts)
    (there' : next.world.glue.pbufs p = some c) (same : c.serial = b.serial) : c.Glued ∧ next.content p = s.content p := by
  obtain ⟨glued,seen⟩ := (runs_kept order there path quiet).2 c there' same
  have frame' := glued.mpr frame
  refine ⟨frame',?_⟩
  rw [(runs_inOrder order path).apart.frames p c there' frame',seen,order.apart.frames p b there frame]

-- Sent on, a frame goes out as a copy of its own.
theorem frame_cloned {num : Fin 2} {clone : Option (Ptr × Ptr)} {malloc : Option Given} {f : Flight}
    {bytes : List UInt8} {b : GitPbuf} (there : s.world.glue.pbufs p = some b) (frame : b.Glued)
    (move : Moves s (.deed (.send num p clone malloc f) bytes) next) :
    f.pbuf ≠ p ∧ s.world.glue.pbufs f.pbuf = none ∧ next.content f.pbuf = s.content p ∧ next.content p = s.content p := by
  cases move with
  | deed deed respects =>
    obtain ⟨b',found,⟨plain,_⟩ | free⟩ := send_place deed.1
    · cases found.symm.trans there
      exact absurd frame plain
    · have elsewhere : p ≠ f.pbuf := by
        intro here
        simp [←here,there] at free
      exact ⟨elsewhere.symm,free,Function.update_self ..,Function.update_of_ne elsewhere _ _⟩

-- Wherever the two stacks have got to with each other: the blob is never handed a frame
-- that lwIP has received, nor writes into one; and each frame that comes in either
-- becomes lwIP's or is lost without a trace, its buffer given back in both cases.
theorem frames_apart {heap : Heap PbufWrapper} {netif : Fin 2 → Option UInt8} {acts : List Act}
    (unused : ∀ p, heap.live p = false) (path : Runs Moves (start heap netif) acts s) :
    s.Apart ∧ s.world.Accounted ∧
    (∀ p b, s.world.glue.pbufs p = some b → b.Glued →
      (∀ later next c, Runs Moves s later next → (∀ c bytes, Act.deed (.write p c) bytes ∉ later) →
        next.world.glue.pbufs p = some c → c.serial = b.serial → c.Glued ∧ next.content p = s.content p) ∧
      ∀ num clone malloc f bytes next, Moves s (.deed (.send num p clone malloc f) bytes) next →
        f.pbuf ≠ p ∧ s.world.glue.pbufs f.pbuf = none ∧ next.content f.pbuf = s.content p ∧ next.content p = s.content p) ∧
    ∀ p x, s.rx p = some x →
      s.ethernetInput p none =
        some ({s with rx := Function.update s.rx p none,recycled := s.recycled ++ x.buffers},null) ∧
      ∀ q data, q ≠ null → s.world.glue.pbufs q = none → ∃ next b, s.ethernetInput p (some (q,data)) = some (next,q) ∧
        Moves s (.received p (some (q,data))) next ∧ next.rx = Function.update s.rx p none ∧
        next.recycled = s.recycled ++ x.buffers ∧ next.world.glue.pbufs q = some b ∧ b.Glued ∧ b.totLen = x.pbuf.totLen ∧
        next.world.own q = 1 ∧ next.content q = x.frame.take x.pbuf.totLen.toNat := by
  have order := runs_inOrder (start_inOrder unused netif) path
  refine ⟨order.apart,order.world.accounted,?_,?_⟩
  · intro p b there frame
    exact ⟨fun later next c run quiet there' same => received_kept order there frame run quiet there' same,
      fun num clone malloc f bytes next move => frame_cloned there frame move⟩
  · intro p x here
    have single := order.apart.single p x here
    refine ⟨ethernetInput_lost here single,?_⟩
    intro q data real fresh
    have run := ethernetInput_taken here single real data
    have offered : ∀ q' data', some (q,data) = some (q',data') → q' ≠ null ∧ s.world.glue.pbufs q' = none := by
      intro q' data' same
      cases same
      exact ⟨real,fresh⟩
    refine ⟨_,_,run,.received offered run,rfl,rfl,Function.update_self ..,glued_glued,single.len.symm,Function.update_self ..,?_⟩
    rw [single.len]
    exact Function.update_self ..

def firstReceived : Link :=
  {start unusedHeap World.linkUp with
    rx := Function.update (fun _ => none) 0x1000 (some ⟨⟨null,0x1038,3,3,PBUF_RAM,0,1,null⟩,[1,2,3,4]⟩)}

-- A frame of which three bytes are good.
theorem frames_apart_once : ∃ s : Link, s.Apart ∧ s.recycled = [] ∧ ∃ b, s.world.glue.pbufs 0x200 = some b ∧ b.Glued ∧
    s.content 0x200 = [1,2,3] := by
  have unused : ∀ p, unusedHeap.live p = false := fun _ => rfl
  have alloc : Moves (start unusedHeap World.linkUp) (.rxAlloc 3 PBUF_RAM (fun _ => some 0x1000) [1,2,3,4]) firstReceived :=
    .rxAlloc rfl (by decide)
  obtain ⟨_,_,_,reception⟩ := frames_apart unused (Runs.single alloc)
  obtain ⟨next,b,_,move,_,recycled,there,glued,_,_,content⟩ := (reception 0x1000 _ rfl).2 0x200 0x300 (by decide) rfl
  exact ⟨next,(frames_apart unused ((Runs.single alloc).step move)).1,recycled,b,there,glued,content⟩

end Link

end NonosLinkLayer.Glue
