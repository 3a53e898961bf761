import NonosLinkLayer.Connections.Frames

namespace NonosLinkLayer.Connections
open HeapList Turns Transitions
open NonosLinkLayer.Espconn (errOk errMem espconnMem espconnArg)

namespace Net
variable {s t u : Net} {cells : List Ptr} {e p x : Ptr} {c : Espconn}

-- plink_active is a list of nodes that are there; every allocation has its number,
-- of which each is freed at most once and none that is freed is still there; and what
-- was processed is freed.
structure Owned (s : Net) (cells : List Ptr) : Prop where
  chain : Chain s.msgs s.plinkActive cells
  numbered : ∀ p, s.msgs.live p = true → (s.msgs.pnode p).born < s.born
  alone : ∀ p q, s.msgs.live p = true → s.msgs.live q = true → (s.msgs.pnode p).born = (s.msgs.pnode q).born → p = q
  once : s.released.Nodup
  gone : ∀ n ∈ s.released, n < s.born ∧ ∀ p, s.msgs.live p = true → (s.msgs.pnode p).born ≠ n
  processed : ∀ n ∈ s.processed, n ∈ s.released
  typed : ∀ p, s.msgs.live p = true → ∀ c, s.espconn (s.msgs.pnode p).pespconn = some c → c.proto ≠ .udp none

structure Whole (s : Net) (cells : List Ptr) : Prop extends Owned s cells where
  inside : ∀ p, s.inside = some p → s.msgs.Node p ∧ Plain s p

theorem typed_proto (typed : Typed s t) (block : t.espconn e = some c) (none_ : c.proto = .udp none) :
    ∃ old, s.espconn e = some old ∧ old.proto = .udp none := by
  obtain ⟨real,there⟩ := espconn_some block
  have udp : c.isUdp = true := by
    unfold Espconn.isUdp
    rw [none_]
  obtain ⟨old,there',same⟩ := typed e c there udp
  exact ⟨old,(if_neg real).trans there',same.trans none_⟩

theorem Owned.same (owned : Owned s cells) (same : Same s t) : Owned t cells := by
  refine ⟨same.chain owned.chain,fun p live => ?_,fun p q one two equal => ?_,?_,fun n member => ?_,fun n member => ?_,
    fun p live c block none_ => ?_⟩
  · rw [same.live] at live
    rw [(same.kin p).born,same.born]
    exact owned.numbered p live
  · rw [same.live] at one two
    rw [(same.kin p).born,(same.kin q).born] at equal
    exact owned.alone p q one two equal
  · rw [same.released]
    exact owned.once
  · rw [same.released] at member
    obtain ⟨early,apart⟩ := owned.gone n member
    refine ⟨by rw [same.born]; exact early,fun p live => ?_⟩
    rw [same.live] at live
    rw [(same.kin p).born]
    exact apart p live
  · rw [same.processed] at member
    rw [same.released]
    exact owned.processed n member
  · rw [same.live] at live
    rw [(same.kin p).pespconn] at block
    obtain ⟨old,there,proto⟩ := typed_proto same.typed block none_
    exact owned.typed p live old there proto

theorem Whole.same (whole : Whole s cells) (same : Same s t) : Whole t cells := by
  refine ⟨whole.toOwned.same same,fun p inside => ?_⟩
  rw [same.inside] at inside
  obtain ⟨⟨real,live⟩,plain⟩ := whole.inside p inside
  exact ⟨⟨real,by rw [same.live]; exact live⟩,plain.still same⟩

theorem Owned.joined {next : List Ptr} (owned : Owned s cells) (fresh : s.msgs.Fresh p) (joined : Joined s next p e t)
    (typed : ∀ c, t.espconn (t.msgs.pnode p).pespconn = some c → c.proto ≠ .udp none) : Owned t next := by
  have old (q : Ptr) (other : q ≠ p) (live : t.msgs.live q = true) : s.msgs.live q = true := by
    rw [joined.live,Function.update_of_ne other] at live
    exact live
  have number (q : Ptr) (live : t.msgs.live q = true) : (q = p ∧ (t.msgs.pnode q).born = s.born) ∨
      (q ≠ p ∧ (t.msgs.pnode q).born = (s.msgs.pnode q).born ∧ (s.msgs.pnode q).born < s.born) := by
    by_cases here : q = p
    · exact .inl ⟨here,by rw [here]; exact joined.number⟩
    · exact .inr ⟨here,(joined.kin q here).1.born,owned.numbered q (old q here live)⟩
  refine ⟨joined.chain,fun q live => ?_,fun q r one two equal => ?_,?_,fun n member => ?_,fun n member => ?_,
    fun q live c block none_ => ?_⟩
  · rw [joined.born]
    rcases number q live with ⟨_,here⟩ | ⟨_,there,early⟩ <;> omega
  · rcases number q one with ⟨rfl,here⟩ | ⟨apart,there,early⟩ <;> rcases number r two with ⟨rfl,here'⟩ | ⟨apart',there',early'⟩
    · rfl
    · omega
    · omega
    · exact owned.alone q r (old q apart one) (old r apart' two) (by omega)
  · rw [joined.released]
    exact owned.once
  · rw [joined.released] at member
    obtain ⟨early,gone⟩ := owned.gone n member
    refine ⟨by rw [joined.born]; omega,fun q live => ?_⟩
    rcases number q live with ⟨_,here⟩ | ⟨apart,there,_⟩
    · omega
    · rw [there]
      exact gone q (old q apart live)
  · rw [joined.processed] at member
    rw [joined.released]
    exact owned.processed n member
  · by_cases here : q = p
    · subst here
      exact typed c block none_
    · rw [(joined.kin q here).1.pespconn] at block
      obtain ⟨before,there,proto⟩ := typed_proto joined.typed block none_
      exact owned.typed q (old q here live) before there proto

theorem Whole.joined {next : List Ptr} (whole : Whole s cells) (fresh : s.msgs.Fresh p) (joined : Joined s next p e t)
    (typed : ∀ c, t.espconn (t.msgs.pnode p).pespconn = some c → c.proto ≠ .udp none) : Whole t next := by
  refine ⟨whole.toOwned.joined fresh joined typed,fun q inside => ?_⟩
  rw [joined.inside] at inside
  obtain ⟨⟨real,live⟩,plain⟩ := whole.inside q inside
  have other : q ≠ p := by
    rintro rfl
    rw [fresh.2] at live
    cases live
  refine ⟨⟨real,by rw [joined.live,Function.update_of_ne other]; exact live⟩,fun c block => ?_⟩
  rw [(joined.kin q other).1.pespconn] at block
  exact typed_plain joined.typed plain block

theorem Owned.removed {next : List Ptr} (owned : Owned s cells) (removed : Removed s next t) : Owned t next := by
  have frame := removed.frame
  refine ⟨removed.chain,?_,?_,?_,?_,?_,?_⟩
  · rw [removed.live,removed.pnode,frame]
    exact owned.numbered
  · rw [removed.live,removed.pnode]
    exact owned.alone
  · rw [frame]
    exact owned.once
  · rw [removed.live,removed.pnode,frame]
    exact owned.gone
  · rw [frame]
    exact owned.processed
  · rw [removed.live,removed.pnode,frame]
    exact owned.typed

theorem Owned.freed (owned : Owned s cells) (foreign : p ∉ cells) (freed : s.freeMsg p = some t) :
    Owned t cells ∧ t.released = s.released ++ [(s.msgs.pnode p).born] := by
  obtain ⟨⟨_,there⟩,rfl⟩ := freeMsg_some freed
  have left (q : Ptr) (live : (s.msgs.freed p).live q = true) : q ≠ p ∧ s.msgs.live q = true := by
    by_cases same : q = p
    · subst same
      exact absurd live (by simp [Heap.freed])
    · exact ⟨same,by simpa [Heap.freed,same] using live⟩
  refine ⟨⟨owned.chain.freed foreign,fun q live => ?_,fun q r one two => ?_,?_,fun n member => ?_,fun n member => ?_,
    fun q live => ?_⟩,rfl⟩
  · exact owned.numbered q (left q live).2
  · exact owned.alone q r (left q one).2 (left r two).2
  · refine List.nodup_append.mpr ⟨owned.once,List.nodup_singleton _,fun n member m single => ?_⟩
    rw [List.mem_singleton] at single
    rw [single]
    exact ((owned.gone n member).2 p there).symm
  · rcases List.mem_append.mp member with old | new
    · exact ⟨(owned.gone n old).1,fun q live => (owned.gone n old).2 q (left q live).2⟩
    · rw [List.mem_singleton] at new
      rw [new]
      refine ⟨owned.numbered p there,fun q live same => (left q live).1 ?_⟩
      exact owned.alone q p (left q live).2 there same
  · exact List.mem_append_left _ (owned.processed n member)
  · exact owned.typed q (left q live).2

theorem Owned.write {write : EspconnMsg → EspconnMsg} (owned : Owned s cells) (written : s.updateMsg p write = some t)
    (born : ∀ m : EspconnMsg, (write m).born = m.born)
    (typed : ∀ c, s.espconn (write (s.msgs.pnode p)).pespconn = some c → c.proto ≠ .udp none) : Owned t cells := by
  obtain ⟨node,rfl⟩ := updateMsg_some written
  have number (q : Ptr) : ((s.msgs.stored p (write (s.msgs.pnode p))).pnode q).born = (s.msgs.pnode q).born := by
    by_cases same : q = p
    · subst same
      exact (congrArg EspconnMsg.born (Function.update_self ..)).trans (born _)
    · exact congrArg EspconnMsg.born (Function.update_of_ne same ..)
  refine ⟨owned.chain.stored p _,fun q live => ?_,fun q r one two equal => ?_,owned.once,fun n member => ?_,owned.processed,
    fun q live => ?_⟩
  · exact (number q).symm ▸ owned.numbered q live
  · exact owned.alone q r one two ((number q).symm.trans (equal.trans (number r)))
  · exact ⟨(owned.gone n member).1,fun q live => (number q).symm ▸ (owned.gone n member).2 q live⟩
  · by_cases same : q = p
    · subst same
      rw [show (s.msgs.stored q (write (s.msgs.pnode q))).pnode q = write (s.msgs.pnode q) from Function.update_self ..]
      exact typed
    · rw [show (s.msgs.stored p (write (s.msgs.pnode p))).pnode q = s.msgs.pnode q from Function.update_of_ne same ..]
      exact owned.typed q live

def Manual (s : Net) (p : Ptr) : Prop := (s.msgs.pnode p).espconnManualRecvDisabled = true

theorem node_some {m : EspconnMsg} (node : s.msgs.node p = some m) : s.msgs.Node p ∧ s.msgs.pnode p = m := by
  unfold Heap.node at node
  split at node
  · exact ⟨‹_›,Option.some.inj node⟩
  · cases node

theorem delete_missing (chain : Chain s.msgs s.plinkActive cells) (foreign : p ∉ cells) (real : p ≠ null) :
    Settles (fun turns => s.espconnListDelete turns p) fun t => t = s := by
  have made := (chain.deleteNode_missing foreign real).map fun found => ({s with msgs := found.1,plinkActive := found.2} : Net)
  have told : Yields (fun turns => s.espconnListDelete turns p) fun t => t = s := ⟨_,rfl,made⟩
  exact told.settles

theorem memp_unlinks (owned : Owned s cells) (real : p ≠ null) (kept : p ∈ cells → Manual s p) :
    Settles (fun turns => s.mempUnlink turns p (s.msgs.pnode p)) fun t => ∃ next, Owned t next ∧ p ∉ next ∧
      t.msgs.pnode = s.msgs.pnode ∧ t.released = s.released ∧ t.processed = s.processed := by
  unfold mempUnlink
  by_cases member : p ∈ cells
  · have manual : (s.msgs.pnode p).espconnManualRecvDisabled = true := kept member
    simp only [if_pos manual]
    obtain ⟨behind,ahead,rfl⟩ := List.append_of_mem member
    refine (delete_removes owned.chain).settles.mono fun t removed => ?_
    refine ⟨_,owned.removed removed,owned.chain.foreign_rest,removed.pnode,?_,?_⟩
    all_goals rw [removed.frame]
  · have still : ∃ next, Owned s next ∧ p ∉ next ∧ s.msgs.pnode = s.msgs.pnode ∧ s.released = s.released ∧
        s.processed = s.processed :=
      ⟨cells,owned,member,rfl,rfl,rfl⟩
    by_cases manual : (s.msgs.pnode p).espconnManualRecvDisabled = true
    · simp only [if_pos manual]
      refine (delete_missing owned.chain member real).mono fun t same => ?_
      rw [same]
      exact still
    · simp only [if_neg manual]
      exact .done still

theorem same_free (s : Net) (e : Ptr) : Same s {s with espconns := Function.update s.espconns e none} := by
  refine ⟨rfl,rfl,rfl,fun _ => kin_refl _,fun e' c block _ => ?_,rfl,rfl,rfl,rfl⟩
  by_cases same : e' = e
  · subst same
    cases (Function.update_self ..).symm.trans block
  · exact ⟨c,(Function.update_of_ne same ..).symm.trans block,rfl⟩

theorem memp_espconn {m : EspconnMsg} (owned : Owned s cells) (freed : s.mempEspconn p m = some t) :
    Owned t cells ∧ (t.msgs.pnode p).born = (s.msgs.pnode p).born ∧ t.released = s.released ∧ t.processed = s.processed := by
  unfold mempEspconn at freed
  split at freed
  · simp only [Option.bind_eq_bind,Option.bind_eq_some_iff] at freed
    obtain ⟨_,_,written⟩ := freed
    refine ⟨(owned.same (same_free s m.pespconn)).write written (fun _ => rfl) fun c block => ?_,?_,?_,?_⟩
    · cases block
    · rw [updateMsg_node written]
    all_goals rw [(updateMsg_some written).2]
  · cases freed
    exact ⟨owned,rfl,rfl,rfl⟩

structure Returned (s : Net) (p : Ptr) (t : Net) : Prop where
  owned : ∃ next, Owned t next ∧ p ∉ next
  released : t.released = s.released ++ [(s.msgs.pnode p).born]
  processed : t.processed = s.processed

theorem memp_owned (owned : Owned s cells) (kept : p ∈ cells → Manual s p) :
    Settles (fun turns => s.espconnTcpMempFree turns p) (Returned s p) := by
  unfold espconnTcpMempFree
  refine .bind (.option fun m node => node_some node) fun m ⟨node,same⟩ => ?_
  subst same
  refine .bind (memp_unlinks owned node.1 kept) fun u ⟨next,owned,foreign,nodes,released,processed⟩ => ?_
  refine .bind (.option fun v freed => memp_espconn owned freed) fun v ⟨owned,born,released',processed'⟩ => ?_
  refine .option fun t freed => ?_
  obtain ⟨owned,last⟩ := owned.freed foreign freed
  refine ⟨⟨next,owned,foreign⟩,?_,?_⟩
  · rw [last,born,nodes,released',released]
  · rw [(freeMsg_some freed).2]
    exact processed'.trans processed

theorem taskEnd_whole (owned : Owned s cells) (kept : p ∈ cells → Manual s p) :
    Settles (fun turns => s.taskEnd turns p) fun t => ∃ next, Whole t next := by
  unfold taskEnd
  refine .bind (.option fun m node => (node_some node).2) fun m same => ?_
  subst same
  refine .bind (memp_owned owned kept) fun t freed => .done ?_
  obtain ⟨⟨next,owned,_⟩,released,processed⟩ := freed
  refine ⟨next,⟨owned.chain,owned.numbered,owned.alone,owned.once,owned.gone,fun n member => ?_,owned.typed⟩,
    fun q inside => by cases inside⟩
  rcases List.mem_append.mp member with old | new
  · exact owned.processed n old
  · rw [List.mem_singleton.mp new]
    dsimp only
    rw [released]
    exact List.mem_append_right _ (List.mem_singleton_self _)

theorem taskCall_whole {callback : EspTcp → Bool} (owned : Owned s cells) (node : s.msgs.Node p) (kept : p ∈ cells → Manual s p)
    (plain : ∀ c tcp, s.espconn e = some c → c.tcp = some tcp → Plain s p) :
    Settles (fun turns => s.taskCall turns p e callback) fun t => ∃ next, Whole t next := by
  unfold taskCall
  refine .bind (.option fun c block => block) fun c block => ?_
  refine .bind (.option fun tcp points => points) fun tcp points => ?_
  split
  · refine .done ⟨cells,⟨owned.chain,owned.numbered,owned.alone,owned.once,owned.gone,owned.processed,owned.typed⟩,fun q inside => ?_⟩
    cases inside
    exact ⟨node,plain c tcp block points⟩
  · exact taskEnd_whole owned kept

theorem Owned.plain {tcp : Option EspTcp} (owned : Owned s cells) (live : s.msgs.live p = true)
    (block : s.espconn (s.msgs.pnode p).pespconn = some c) (points : c.tcp = some tcp) : Plain s p := by
  intro c' block'
  cases block.symm.trans block'
  have proto := owned.typed p live c block
  unfold Espconn.tcp at points
  unfold Espconn.isUdp
  split at points
  · rename_i same
    rw [same]
  · rename_i same
    rw [same]
  · exact absurd ‹_› proto
  · cases points

theorem Manual.same (manual : Manual s p) (still : Still s t) : Manual t p := by
  unfold Manual EspconnMsg.espconnManualRecvDisabled at manual ⊢
  rw [still.opts]
  exact manual

section Calls
variable {P : Net → Prop}

def Calls (s : Net) (p : Ptr) (P : Net → Prop) : Prop := ∀ u e callback, Still s u →
  (∀ c tcp, u.espconn e = some c → c.tcp = some tcp → Plain u p) → Settles (fun turns => u.taskCall turns p e callback) P

-- What holds then, and at the end of an event without it, holds of what the event comes to.
theorem reconnect_calls (typed : ∀ c tcp, s.espconn (s.msgs.pnode p).pespconn = some c → c.tcp = some tcp → Plain s p)
    (calls : Calls s p P) (finish : Settles (fun turns => s.taskEnd turns p) P) :
    Settles (fun turns => s.espconnTcpReconnect turns p) P := by
  unfold espconnTcpReconnect
  refine .bind (.option fun m node => (node_some node).2) fun m same => ?_
  subst same
  split
  · rename_i bare
    split
    · exact finish
    · exact calls s _ _ (still_refl s) fun _ _ _ _ => plain_null bare
  split
  · refine .bind (.option fun c block => block) fun c block => ?_
    refine .bind (.option fun tcp points => points) fun tcp points => ?_
    have plain := typed c tcp block points
    split
    · exact .bind (.option fun t copied => still_copied copied) fun t still => calls t _ _ still fun _ _ _ _ => plain.still still.toSame
    · exact .bind (.done rfl) fun t same => calls t _ _ (same ▸ still_refl s) fun _ _ _ _ => same ▸ plain
  · exact calls s _ _ (still_refl s) typed

theorem still_release (s : Net) (m : EspconnMsg) : Still s (s.releasePcb m) := by
  unfold releasePcb
  dsimp only
  split
  · exact still_refl s
  split
  · exact still_fields s _ s.queue
  · exact still_fields s _ s.queue

theorem release_espconn (s : Net) (m : EspconnMsg) (e : Ptr) : (s.releasePcb m).espconn e = s.espconn e := by
  unfold releasePcb
  dsimp only
  split
  · rfl
  split
  · rfl
  · rfl

theorem disconnected_calls (typed : ∀ c tcp, s.espconn (s.msgs.pnode p).pespconn = some c → c.tcp = some tcp → Plain s p)
    (calls : Calls s p P) : Settles (fun turns => s.espconnTcpDisconnectSuccessful turns p) P := by
  unfold espconnTcpDisconnectSuccessful
  refine .bind (.option fun m node => (node_some node).2) fun m same => ?_
  subst same
  split
  · rename_i bare
    exact calls s _ _ (still_refl s) fun _ _ _ _ => plain_null bare
  split
  · refine .bind (.option fun c block => block) fun c block => ?_
    refine .bind (.option fun tcp points => points) fun tcp points => ?_
    refine .bind (.option fun _ _ => trivial) fun own _ => ?_
    refine .bind (.option fun _ _ => trivial) fun listen _ => ?_
    have plain := typed c tcp block points
    have released (t : Net) (still : Still s t) := calls (t.releasePcb (s.msgs.pnode p)) (s.msgs.pnode p).preverse
      EspTcp.disconnectCallback (still.trans (still_release t _)) fun _ _ _ _ => plain.still (still.trans (still_release t _)).toSame
    split
    · exact .bind (.option fun t copied => still_copied copied) fun t still => released t still
    · exact .bind (.done rfl) fun t same => released t (same ▸ still_refl s)
  · refine calls _ _ _ (still_release s _) fun c tcp block points => ?_
    rw [release_espconn] at block
    exact (typed c tcp block points).still (still_release s _).toSame

end Calls

theorem calls_whole (owned : Owned s cells) (node : s.msgs.Node p) (kept : p ∈ cells → Manual s p) :
    Calls s p fun t => ∃ next, Whole t next := by
  intro u e callback still plain
  have there : u.msgs.Node p := ⟨node.1,by rw [still.live]; exact node.2⟩
  exact taskCall_whole (owned.same still.toSame) there (fun member => (kept member).same still) plain

theorem walked_active (cells : List Ptr) :
    walked (activeTurn p) (cells.map fun c => (c,s.msgs.pnode c)) false = some (decide (p ∈ cells)) := by
  induction cells with
  | nil => rfl
  | cons c rest ih =>
    rw [List.map_cons,walked]
    unfold activeTurn
    by_cases same : c = p
    · rw [if_pos same]
      simp [same]
    · rw [if_neg same]
      refine ih.trans ?_
      simp [Ne.symm same]

-- The node is out of the list, or has the option MANUALRECV.
theorem unlink_owned (owned : Owned s cells) (member : p ∈ cells) :
    Settles (fun turns => s.taskUnlink turns p) fun t => ∃ next, Owned t next ∧ (p ∈ next → Manual t p) ∧ t.msgs.Node p := by
  unfold taskUnlink
  refine .bind (.option fun m node => node_some node) fun m ⟨node,same⟩ => ?_
  subst same
  split
  · rename_i manual
    exact .done ⟨cells,owned,fun _ => manual,node⟩
  · obtain ⟨behind,ahead,rfl⟩ := List.append_of_mem member
    refine (delete_removes owned.chain).settles.mono fun t removed => ?_
    exact ⟨_,owned.removed removed,fun inside => absurd inside owned.chain.foreign_rest,node.1,by rw [removed.live]; exact node.2⟩

theorem task_settles {P : Net → Prop} {killOldest : Pcbs → Pcbs} (chain : Chain s.msgs s.plinkActive cells)
    (quiet : ∀ queue, P {s with queue})
    (handled : ∀ queue p, p ∈ cells → Settles (fun turns => {s with queue}.taskUnlink turns p) fun t =>
      Settles (fun turns => {t with pcbs := killOldest t.pcbs}.espconnTcpReconnect turns p) P ∧
      Settles (fun turns => {t with pcbs := killOldest t.pcbs}.espconnTcpDisconnectSuccessful turns p) P) :
    Settles (fun turns => s.espconnTask turns killOldest) P := by
  unfold espconnTask
  cases queued : s.queue with
  | nil => exact .fails
  | cons event queue =>
    obtain ⟨sig,p⟩ := event
    dsimp only
    have popped : Chain {s with queue}.msgs {s with queue}.plinkActive cells := chain
    refine .bind (popped.walkNodes_settles (P:=fun active => active = decide (p ∈ cells)) fun active walk => ?_) fun active found => ?_
    · exact Option.some.inj (walk.symm.trans (walked_active cells))
    split
    · exact .done (quiet queue)
    · rename_i member
      rw [found,decide_eq_false_iff_not,not_not] at member
      cases sig with
      | write =>
        refine .bind (.option fun _ _ => trivial) fun m _ => ?_
        split
        · exact .done (quiet queue)
        · exact .bind (.option fun _ _ => trivial) fun _ _ => .done (quiet queue)
      | errer => exact .bind (handled queue p member) fun t both => both.1
      | close => exact .bind (handled queue p member) fun t both => both.2

theorem task_whole (whole : Whole s cells) (killOldest : Pcbs → Pcbs) :
    Settles (fun turns => s.espconnTask turns killOldest) fun t => ∃ next, Whole t next := by
  have popped (queue : List (Signal × Ptr)) : Whole {s with queue} cells := whole.same (still_fields s s.pcbs queue).toSame
  refine task_settles whole.chain (fun queue => ⟨cells,popped queue⟩) fun queue p member => ?_
  refine (unlink_owned (popped queue).toOwned member).mono fun t ⟨next,owned,kept,node⟩ => ?_
  have still : Still t {t with pcbs := killOldest t.pcbs} := still_fields t _ t.queue
  have owned := owned.same still.toSame
  have typed := fun c tcp block points => @Owned.plain _ _ p c tcp owned node.2 block points
  have calls := calls_whole owned node fun member => (kept member).same still
  exact ⟨reconnect_calls typed calls (taskEnd_whole owned fun member => (kept member).same still),disconnected_calls typed calls⟩

theorem Whole.removed {next : List Ptr} (whole : Whole s cells) (removed : Removed s next t) : Whole t next := by
  refine ⟨whole.toOwned.removed removed,?_⟩
  have frame := removed.frame
  unfold Plain Heap.Node
  rw [removed.live,removed.pnode,frame]
  exact whole.inside

theorem Whole.freed (whole : Whole s cells) (foreign : p ∉ cells) (out : s.inside ≠ some p) (freed : s.freeMsg p = some t) :
    Whole t cells := by
  refine ⟨(whole.toOwned.freed foreign freed).1,?_⟩
  obtain ⟨_,rfl⟩ := freeMsg_some freed
  intro q inside
  obtain ⟨⟨real,live⟩,plain⟩ := whole.inside q inside
  have other : q ≠ p := by
    rintro rfl
    exact out inside
  exact ⟨⟨real,(Function.update_of_ne other ..).trans live⟩,plain⟩

theorem Whole.out (whole : Whole s cells) (fresh : s.msgs.Fresh p) : s.inside ≠ some p := by
  intro inside
  have live := (whole.inside p inside).1.2
  rw [fresh.2] at live
  cases live

theorem outcome_whole {err : Int} (whole : Whole s (cells ++ [p])) (out : s.inside ≠ some p) :
    Settles (fun turns => s.clientOutcome turns p x err) fun r => ∃ next, Whole r.1 next := by
  unfold clientOutcome
  split
  · refine .bind (delete_removes whole.chain).settles fun t removed => ?_
    have left := whole.removed removed
    have still : Still t {t with pcbs := t.pcbs.espconnKillPcb (t.pcbs.pcb x).localPort} := still_fields t _ t.queue
    refine .bind (.option fun u freed => ?_) fun u left => .done left
    refine ⟨_,(left.same still.toSame).freed whole.chain.foreign_rest ?_ freed⟩
    dsimp only
    rw [removed.frame]
    exact out
  · exact .done ⟨_,whole⟩

theorem protoTcp_some {tcp : EspTcp} (points : s.protoTcp e = some tcp) : ∃ c, s.espconn e = some c ∧ c.tcp = some (some tcp) := by
  unfold protoTcp at points
  simp only [Option.bind_eq_bind,Option.bind_eq_some_iff] at points
  obtain ⟨c,block,_,there,rfl⟩ := points
  exact ⟨c,block,there⟩

theorem client_whole {zalloc : Option Ptr} {T : Tcp} (whole : Whole s cells) (fresh : ∀ p, zalloc = some p → s.msgs.Fresh p) :
    Settles (fun turns => s.espconnTcpClient turns e zalloc T) fun r => ∃ next, Whole r.1 next := by
  unfold espconnTcpClient
  cases zalloc with
  | none => exact .done ⟨cells,whole⟩
  | some p =>
    have new := fresh p rfl
    have out := whole.out new
    have joined := zalloc_joined whole.chain new
    have foreign := fresh_foreign whole.chain new
    dsimp only
    refine .bind (.option fun tcp points => @protoTcp_some s e tcp points) fun tcp ⟨c,block,points⟩ => ?_
    cases T.tcpNew (s.zallocMsg p).pcbs with
    | none =>
      have bare := whole.joined new joined fun c block => by rw [zalloc_mine] at block; cases block
      exact .bind (.option fun t freed => ⟨cells,bare.freed foreign out freed⟩) fun t left => .done left
    | some made =>
      obtain ⟨x,pcbs⟩ := made
      dsimp only
      have taken := joined.still (still_fields (s.zallocMsg p) pcbs s.queue)
      refine .bind (taken.creat new.1 foreign) fun a ⟨joined,_,_⟩ => ?_
      have armed := joined.still (still_fields a ((a.tcpArg x p).tcpErr x (some .client)).pcbs a.queue)
      refine .bind (.option fun b written => And.intro (armed.write (f:=null) written (fun _ => ⟨rfl,rfl⟩) rfl)
        (congrArg EspconnMsg.pespconn (updateMsg_node written))) fun b ⟨joined,own⟩ => ?_
      refine .bind (.option fun d state => still_setState state) fun d waits => ?_
      refine .bind (.option fun f written => still_updateMsg written fun _ => ⟨⟨rfl,rfl,rfl⟩,rfl⟩) fun f written => ?_
      have still := (waits.trans written).trans (still_fields f (T.tcpBind f.pcbs x (UInt16.ofInt tcp.localPort)) f.queue)
      refine .bind (.option fun g written => still.trans (still_updateMsg written fun _ => ⟨⟨rfl,rfl,rfl⟩,rfl⟩)) fun g still => ?_
      have connected := still.trans (still_fields g (T.tcpConnect g.pcbs x tcp.remoteIp (UInt16.ofInt tcp.remotePort)).1 g.queue)
      have last := joined.still connected
      refine outcome_whole (whole.joined new last fun c' block' udp => ?_) fun inside => out (last.inside.symm.trans inside)
      rw [(connected.kin p).pespconn,own] at block'
      have plain : c'.isUdp = false := typed_plain last.typed (fun old there => ?_) block'
      · unfold Espconn.isUdp at plain
        rw [udp] at plain
        cases plain
      · cases block.symm.trans there
        exact tcp_isUdp points

theorem connect_whole {wifi : Int} {zalloc : Option Ptr} {T : Tcp} (whole : Whole s cells)
    (fresh : ∀ p, zalloc = some p → s.msgs.Fresh p) :
    Settles (fun turns => s.espconnConnect turns e wifi zalloc T) fun r => ∃ next, Whole r.1 next := by
  unfold espconnConnect
  have still : ∃ next, Whole s next := ⟨cells,whole⟩
  by_cases real : e = null
  · simp only [if_pos real]
    exact .done still
  simp only [if_neg real]
  refine .bind (.option fun _ _ => trivial) fun c _ => ?_
  split
  · exact .done still
  refine .bind (whole.chain.walkNodes_settles fun _ _ => trivial) fun num _ => ?_
  split
  · exact .done still
  split
  · exact .done still
  refine .bind (whole.chain.walkNodes_settles fun _ _ => trivial) fun used _ => ?_
  split
  · exact .done still
  · exact client_whole whole fresh

theorem create_whole {upcb zalloc : Option Ptr} (whole : Whole s cells) (fresh : ∀ p, zalloc = some p → s.msgs.Fresh p) :
    Settles (fun turns => s.espconnCreate turns e upcb zalloc) fun r => ∃ next, Whole r.1 next := by
  unfold espconnCreate
  have still : ∃ next, Whole s next := ⟨cells,whole⟩
  by_cases real : e = null
  · simp only [if_pos real]
    exact .done still
  simp only [if_neg real]
  refine .bind (.option fun _ _ => trivial) fun c _ => ?_
  split
  · exact .done still
  refine .bind (whole.chain.walkNodes_settles fun _ _ => trivial) fun used _ => ?_
  split
  · exact .done still
  unfold espconnUdpServer
  split
  · exact .done still
  · exact .done still
  · rename_i x p
    have new := fresh p rfl
    have joined := zalloc_joined whole.chain new
    refine .bind (.option fun a written => And.intro (joined.write (f:=null) written (fun _ => ⟨rfl,rfl⟩) joined.preverse)
      (congrArg EspconnMsg.pespconn (updateMsg_node written))) fun a ⟨joined,own⟩ => ?_
    refine .bind (joined.creat new.1 (fresh_foreign whole.chain new)) fun b ⟨joined,nodes,_⟩ => ?_
    refine .bind (.option fun port told => told) fun port told => .done ⟨_,whole.joined new joined fun c block none_ => ?_⟩
    rw [nodes,own] at block
    unfold udpPort at told
    rw [block] at told
    dsimp only [Option.bind_eq_bind,Option.bind_some] at told
    rw [none_] at told
    cases told

theorem delete_whole {err : Int} (whole : Whole s cells) :
    Settles (fun turns => s.espconnDelete turns e err) fun r => ∃ next, Whole r.1 next := by
  unfold espconnDelete
  by_cases real : e = null
  · simp only [if_pos real]
    exact .done ⟨cells,whole⟩
  simp only [if_neg real]
  refine .bind (.option fun c block => block) fun c block => ?_
  split
  · unfold espconnTcpDelete
    simp only [if_neg real]
    refine .bind (info_settles whole.chain real) fun (t,_) ⟨c,block,informed⟩ => ?_
    have left := whole.same (informed.asked block).toSame
    refine .bind (.option fun _ _ => trivial) fun c _ => ?_
    split
    · exact .done ⟨cells,left⟩
    dsimp only
    cases t.server e with
    | none => exact .done ⟨cells,left⟩
    | some server => exact .done ⟨cells,left.same ⟨rfl,rfl,rfl,fun _ => kin_refl _,typed_refl t,rfl,rfl,rfl,rfl⟩⟩
  · rename_i udp
    rw [Bool.not_eq_false] at udp
    refine .bind (find_settles whole.chain e) fun pnode found => ?_
    cases pnode with
    | none => exact .done ⟨cells,whole⟩
    | some p =>
      obtain ⟨member,own | ⟨c',tcp,block',points⟩⟩ := found p rfl
      · have out : s.inside ≠ some p := by
          intro inside
          have plain := (whole.inside p inside).2 c (by rw [own]; exact block)
          rw [udp] at plain
          cases plain
        obtain ⟨behind,ahead,rfl⟩ := List.append_of_mem member
        dsimp only
        unfold espconnUdpDisconnect
        refine .bind (P:=fun t => ∃ next, Whole t next) ?_ fun t left => .done left
        refine .bind (delete_removes whole.chain).settles fun t removed => .option fun u freed => ?_
        exact ⟨_,(whole.removed removed).freed whole.chain.foreign_rest (by rw [removed.frame]; exact out) freed⟩
      · cases block.symm.trans block'
        rw [tcp_isUdp points] at udp
        cases udp

theorem listens_whole {listen : Option Ptr} (whole : Whole s cells) :
    Settles (fun turns => s.espconnAccept turns e listen) fun r => ∃ next, Whole r.1 next := by
  unfold espconnAccept
  have still : ∃ next, Whole s next := ⟨cells,whole⟩
  by_cases real : e = null
  · simp only [if_pos real]
    exact .done still
  simp only [if_neg real]
  refine .bind (.option fun _ _ => trivial) fun c _ => ?_
  split
  · exact .done still
  refine .bind (whole.chain.walkNodes_settles fun _ _ => trivial) fun used _ => ?_
  split
  · exact .done still
  cases listen with
  | none => exact .done still
  | some lpcb =>
    refine .bind (.option fun _ _ => trivial) fun tcp _ => ?_
    refine .bind (.option fun t state => still_setState state) fun t still => .done ⟨cells,?_⟩
    exact (whole.same still.toSame).same ⟨rfl,rfl,rfl,fun _ => kin_refl _,typed_refl t,rfl,rfl,rfl,rfl⟩

theorem changeOpt_whole {change : UInt8 → UInt8} (whole : Whole s cells) :
    Settles (fun turns => s.changeOpt turns e change) fun r => ∃ next, Whole r.1 next := by
  unfold changeOpt
  have still : ∃ next, Whole s next := ⟨cells,whole⟩
  by_cases real : e = null
  · simp only [if_pos real]
    exact .done still
  simp only [if_neg real]
  refine .bind (.option fun _ _ => trivial) fun c _ => ?_
  split
  · exact .done still
  refine .bind (find_settles whole.chain e) fun pnode _ => ?_
  cases pnode with
  | none => exact .done still
  | some p =>
    exact .bind (.option fun t written => same_updateMsg written fun _ => ⟨rfl,rfl,rfl⟩) fun t same =>
      .done ⟨cells,whole.same same⟩

theorem setMax_whole {num : UInt8} {r : Net × Int} (whole : Whole s cells) (told : s.espconnTcpSetMaxConAllow e num = some r) :
    Whole r.1 cells := by
  unfold espconnTcpSetMaxConAllow at told
  split at told
  · cases told
    exact whole
  simp only [Option.bind_eq_bind,Option.bind_eq_some_iff] at told
  obtain ⟨c,_,told⟩ := told
  split at told
  · cases told
    exact whole
  · cases told
    exact whole.same ⟨rfl,rfl,rfl,fun _ => kin_refl _,typed_refl s,rfl,rfl,rfl,rfl⟩

theorem info_whole (whole : Whole s cells) :
    Settles (fun turns => s.espconnGetConnectionInfo turns e) fun r => ∃ next, Whole r.1 next := by
  by_cases real : e = null
  · unfold espconnGetConnectionInfo
    simp only [if_pos real]
    exact .done ⟨cells,whole⟩
  · exact (info_settles whole.chain real).mono fun r ⟨c,block,informed⟩ => ⟨cells,whole.same (informed.asked block).toSame⟩

theorem incoming_whole {grant : Grant} (whole : Whole s cells) (fresh : ∀ p, grant.paccept = some p → s.msgs.Fresh p)
    (free : ∀ a, grant.pespconn = some a → a ≠ e ∧ s.espconns a = none) :
    Settles (fun turns => s.espconnTcpAccept turns e x grant) fun r => ∃ next, Whole r.1 next := by
  refine (accept_cases whole.chain fresh free).mono fun r outcome => ?_
  cases outcome with
  | declined t before after =>
    have same : Same s t := by
      rcases before with still | asked
      · exact still.toSame
      · exact asked.toSame
    exact ⟨cells,whole.same (same.trans after.toSame)⟩
  | joined c t p block asked room taken =>
    obtain ⟨real,absent⟩ := fresh p taken.granted
    have new : t.msgs.Fresh p := ⟨real,by rw [asked.live]; exact absent⟩
    refine ⟨_,(whole.same asked.toSame).joined new taken.joined fun c' block' udp => ?_⟩
    have other := taken.plain c' block'
    unfold Espconn.isUdp at other
    rw [udp] at other
    cases other

-- When the application returns, the node has left plink_active, or still has the
-- option MANUALRECV that has kept it there.
def Kept (s : Net) : Event → Prop
  | .finish => ∀ p, s.inside = some p → ∀ cells, Chain s.msgs s.plinkActive cells → p ∈ cells → s.Manual p
  | _ => True

theorem perform_whole {event : Event} (whole : Whole s cells) (allowed : s.Allowed event) (kept : s.Kept event) :
    Settles (fun turns => s.perform turns event) fun t => ∃ next, Whole t next := by
  have told {f : Nat → Option (Net × Int)} (still : Settles f fun r => Still s r.1) :
      Settles (fun turns => (f turns).map Prod.fst) fun t => ∃ next, Whole t next :=
    still.map _ fun _ still => ⟨cells,whole.same still.toSame⟩
  cases event with
  | connect e wifi zalloc T => exact (connect_whole whole allowed).map _ fun _ left => left
  | accept e listen => exact (listens_whole whole).map _ fun _ left => left
  | create e upcb zalloc => exact (create_whole whole allowed).map _ fun _ left => left
  | disconnect e err => exact told (still_disconnect whole.chain)
  | abort e => exact told (still_abort whole.chain)
  | delete e err => exact (delete_whole whole).map _ fun _ left => left
  | setOpt e opt => exact (changeOpt_whole whole).map _ fun _ left => left
  | clearOpt e opt => exact (changeOpt_whole whole).map _ fun _ left => left
  | setMax e num => exact (Settles.option fun r told => ⟨cells,setMax_whole whole told⟩).map _ fun _ left => left
  | info e => exact (info_whole whole).map _ fun _ left => left
  | sent e posts => exact told (still_sent whole.chain posts)
  | application e tcp => exact .option fun t written => ⟨cells,whole.same (still_application written).toSame⟩
  | incoming e x grant => exact (incoming_whole whole allowed.2.1 fun a granted => (allowed.2.2 a granted).2).map _ fun _ left => left
  | connected x => exact .option fun t connected => ⟨cells,whole.same (still_connected connected).toSame⟩
  | receive x state => exact .option fun t received => ⟨cells,whole.same (still_receive received).toSame⟩
  | closed x err => exact .option fun t closed => ⟨cells,whole.same (still_close closed).toSame⟩
  | failed x err => exact .option fun t failed => ⟨cells,whole.same (still_failed failed).toSame⟩
  | lwip pcbs => exact .done ⟨cells,whole.same (still_fields s pcbs s.queue).toSame⟩
  | task killOldest =>
    unfold perform
    dsimp only
    split
    · exact task_whole whole killOldest
    · exact .fails
  | finish => exact .bind (.option fun p inside => inside) fun p inside => taskEnd_whole whole.toOwned (kept p inside cells whole.chain)

theorem start_whole (espconns : Ptr → Option Espconn) (pcbs : Pcbs) : Whole (start espconns pcbs) [] := by
  refine ⟨⟨.empty _,fun _ live => ?_,fun _ _ live => ?_,.nil,fun _ member => ?_,fun _ member => ?_,fun _ live => ?_⟩,fun _ inside => ?_⟩
  · cases live
  · cases live
  · cases member
  · cases member
  · cases live
  · cases inside

-- Every node that plink_active leads to is allocated, and none that was freed is
-- among them; and what was processed is not either, and was freed once.
def Lifetimes (s : Net) : Prop := ∃ cells, Chain s.msgs s.plinkActive cells ∧
  (∀ n ∈ s.released, ∀ p ∈ cells, (s.msgs.pnode p).born ≠ n) ∧
  ∀ n ∈ s.processed, (∀ p ∈ cells, (s.msgs.pnode p).born ≠ n) ∧ s.released.count n = 1

theorem Owned.lifetimes (owned : Owned s cells) : s.Lifetimes := by
  have out (n : Nat) (member : n ∈ s.released) (p : Ptr) (linked : p ∈ cells) : (s.msgs.pnode p).born ≠ n :=
    (owned.gone n member).2 p (owned.chain.live p linked)
  refine ⟨cells,owned.chain,out,fun n member => ?_⟩
  have freed := owned.processed n member
  exact ⟨out n freed,List.count_eq_one_of_mem owned.once freed⟩

end Net

-- Whatever comes in whatever order, also in the callbacks: nodes are freed in time,
-- and no one else's, as long as no callback takes MANUALRECV from the node it is about.
theorem lifetimes_kept (espconns : Ptr → Option Espconn) (pcbs : Pcbs) (events : List Event) (s : Net)
    (path : Runs (fun s event t => s.Step event t ∧ s.Kept event) (Net.start espconns pcbs) events s) : s.Lifetimes := by
  have whole : ∃ cells, Net.Whole s cells := by
    refine path.keeps (I:=fun s => ∃ cells, Net.Whole s cells) ⟨[],Net.start_whole espconns pcbs⟩ ?_
    rintro s event t ⟨cells,whole⟩ ⟨⟨allowed,ends⟩,kept⟩
    exact (Net.perform_whole whole allowed kept).holds ends
  obtain ⟨cells,whole⟩ := whole
  exact whole.toOwned.lifetimes

def caller (e : Ptr) : Option Espconn :=
  if e = 1 then some ⟨.tcp (some ⟨80,5000,0,0x0204a8c0,false,false,true,false⟩),.none,0⟩ else none

def noPcbs : Pcbs := ⟨fun _ => ⟨0,0,0,0,null,none⟩,fun _ => false,[],[],[]⟩

def connects : Tcp where
  tcpNew s := some (2,{s with live := Function.update s.live 2 true})
  tcpBind s _ _ := s
  tcpConnect s _ _ _ := (s,errOk)

theorem caller_fresh (p : Ptr) (same : some 10 = some p) : (Net.start caller noPcbs).msgs.Fresh p := by
  cases same
  exact ⟨by decide,rfl⟩

def held : List Event := [.connect 1 0 (some 10) connects,.setOpt 1 espconnManualrecv,.disconnect 1 errOk,.task id,.finish]

theorem held_lifetimes : ∃ s, Runs (fun s event t => s.Step event t ∧ s.Kept event) (Net.start caller noPcbs) held s ∧ s.Lifetimes := by
  have path : ∃ s, Runs (fun s event t => s.Step event t ∧ s.Kept event) (Net.start caller noPcbs) held s :=
    ⟨_,.first ⟨⟨caller_fresh,.late 2 fun _ => rfl⟩,trivial⟩ <| .first ⟨⟨trivial,.late 2 fun _ => rfl⟩,trivial⟩ <|
      .first ⟨⟨trivial,.late 2 fun _ => rfl⟩,trivial⟩ <| .first ⟨⟨trivial,.late 2 fun _ => rfl⟩,trivial⟩ <|
      .first ⟨⟨trivial,.late 2 fun _ => rfl⟩,fun p inside _ _ _ => by cases inside; rfl⟩ .nil⟩
  obtain ⟨s,path⟩ := path
  exact ⟨s,path,lifetimes_kept caller noPcbs held s path⟩

def cleared : List Event :=
  [.connect 1 0 (some 10) connects,.setOpt 1 espconnManualrecv,.disconnect 1 errOk,.task id,.clearOpt 1 espconnManualrecv,.finish]

theorem cleared_runs : ∃ s, Runs Net.Step (Net.start caller noPcbs) cleared s ∧ s.plinkActive = 10 ∧ s.msgs.live 10 = false :=
  ⟨_,.first ⟨caller_fresh,.late 2 fun _ => rfl⟩ <| .first ⟨trivial,.late 2 fun _ => rfl⟩ <|
    .first ⟨trivial,.late 2 fun _ => rfl⟩ <| .first ⟨trivial,.late 2 fun _ => rfl⟩ <|
    .first ⟨trivial,.late 2 fun _ => rfl⟩ <| .first ⟨trivial,.late 2 fun _ => rfl⟩ .nil,rfl,rfl⟩

-- plink_active leads to a node that was freed.
theorem cleared_dangles : ¬ (∀ espconns pcbs events s, Runs Net.Step (Net.start espconns pcbs) events s → s.Lifetimes) := by
  intro always
  obtain ⟨s,path,head,gone⟩ := cleared_runs
  obtain ⟨cells,chain,_,_⟩ := always caller noPcbs cleared s path
  have first := chain.start
  rw [head] at first
  cases cells with
  | nil => cases first
  | cons c rest =>
    cases first
    have live := chain.live 10 (List.mem_cons_self ..)
    rw [gone] at live
    cases live

end NonosLinkLayer.Connections
