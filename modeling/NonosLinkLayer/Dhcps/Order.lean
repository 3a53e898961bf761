import NonosLinkLayer.Dhcps.Upkeep

namespace NonosLinkLayer.Dhcps

def Ordered (l : List DhcpsPool) : Prop := (l.map DhcpsPool.ip).Pairwise (· ≤ ·)

section Ordered
variable {l l' : List DhcpsPool} {p q : DhcpsPool} {s next : Server} {i : Nat}

theorem owners_ordered (fewer : (owners l').Sublist (owners l)) (ordered : Ordered l) : Ordered l' := by
  have part := fewer.map Prod.fst
  unfold owners at part
  rw [List.map_map,List.map_map] at part
  exact ordered.sublist part

theorem remove_ordered (ordered : Ordered l) (i : Nat) : Ordered (nodeRemoveFromList l i) :=
  ordered.sublist ((List.eraseIdx_sublist ..).map _)

theorem insert_ordered (ordered : Ordered l) (node : DhcpsPool) : Ordered (nodeInsertToList node l) := by
  induction l with
  | nil => exact List.pairwise_singleton _ _
  | cons p rest ih =>
    obtain ⟨least,later⟩ := List.pairwise_cons.mp ordered
    unfold nodeInsertToList
    split_ifs with less
    · refine List.pairwise_cons.mpr ⟨fun ip member => ?_,ordered⟩
      rcases List.mem_cons.mp member with same | behind
      · rw [same]
        exact UInt32.le_of_lt less
      · exact UInt32.le_trans (UInt32.le_of_lt less) (least ip behind)
    · refine List.pairwise_cons.mpr ⟨fun ip member => ?_,ih later⟩
      have moved := ((insert_perm node rest).map DhcpsPool.ip).subset member
      rcases List.mem_cons.mp moved with same | behind
      · rw [same]
        exact UInt32.not_lt.mp less
      · exact least ip behind

theorem set_ordered (ordered : Ordered l) (here : l[i]? = some p) (same : q.ip = p.ip) : Ordered (l.set i q) := by
  have still : (l.set i q).map DhcpsPool.ip = l.map DhcpsPool.ip := by
    obtain ⟨inside,content⟩ := List.getElem?_eq_some_iff.mp here
    have length : i < (l.map DhcpsPool.ip).length := by rwa [List.length_map]
    have own : (l.map DhcpsPool.ip)[i] = q.ip := by rw [List.getElem_map,content,same]
    rw [List.map_set,←own,List.set_getElem_self]
  unfold Ordered
  rwa [still]

theorem Assigned.ordered (ordered : Ordered s.plist) (assigned : Assigned s bssid ip type plist addr renew) :
    Ordered plist := by
  cases assigned with
  | refused => exact ordered
  | renewed here mac own => exact set_ordered ordered here rfl
  | takenOver here mac there own other offline =>
    refine remove_ordered ?_ _
    exact set_ordered ordered there rfl
  | moved here mac chosen => exact insert_ordered (remove_ordered ordered _) _
  | inherited unknown there own offline => exact set_ordered ordered there rfl
  | opened unknown chosen fits => exact insert_ordered ordered _

theorem step_ordered (ordered : Ordered s.plist) (event : Event) (ran : perform s event = some next) :
    Ordered next.plist := by
  have changed := step_changed event ran
  generalize next.plist = plist at changed ⊢
  cases changed with
  | fewer fewer => exact owners_ordered fewer ordered
  | assigned assigned => exact assigned.ordered ordered
  | added node _ => exact insert_ordered ordered node

end Ordered

inductive Command where
  | event (event : Event)
  | stop

def dhcpsStop (s : Server) : Server := {s with plist := []}

def obey (s : Server) : Command → Option Server
  | .event event => perform s event
  | .stop => some (dhcpsStop s)

namespace Nodes
open HeapList

def perform (turns : Nat) (fresh : Ptr) (s : State) : Command → Option State
  | .event (.update bssid ip) => (wifiSoftapDhcpsClientUpdate turns fresh s bssid ip).map Prod.fst
  | .event (.leave bssid ip force) => wifiSoftapDhcpsClientLeave turns s bssid ip force
  | .event (.add macaddr) => wifiSoftapAddDhcpsLease turns fresh s macaddr
  | .event .timer => dhcpsCoarseTmr turns s
  | .stop => dhcpsStop turns s

section Commands
variable {s : State} {t next : Server} {turns : Nat} {fresh : Ptr}

theorem perform_shows (shown : Shows s t) (free : s.heap.Fresh fresh) (enough : t.plist.length < turns)
    (command : Command) (ran : obey t command = some next) :
    ∃ s', perform turns fresh s command = some s' ∧ Shows s' next := by
  cases command with
  | stop =>
    cases ran
    exact stop_shows shown enough
  | event event =>
    cases event with
    | update bssid ip =>
      cases ran
      obtain ⟨s',went,shown'⟩ := update_shows shown free enough bssid ip
      exact ⟨s',by rw [perform,went]; rfl,shown'⟩
    | leave bssid ip force =>
      cases ran
      exact leave_shows shown enough bssid ip force
    | add macaddr =>
      cases ran
      exact add_shows shown free enough macaddr
    | timer => exact timer_shows shown enough ran

-- The pointers lead along finitely many nodes, each met once, to the null pointer;
-- the raw addresses never fall on the way, and no two nodes have one mac.
structure Shaped (s : State) (cells : List Ptr) : Prop where
  chain : Chain s.heap s.plist cells
  ordered : (cells.map fun c => (s.heap.pnode c).ip).Pairwise (· ≤ ·)
  single : (cells.map fun c => (s.heap.pnode c).mac).Nodup

-- The list is in shape in every state on the way. Every command goes through when
-- its loops have more turns than the list has nodes, wherever os_zalloc puts a node.
def AllShaped : State → List Command → Prop
  | s,[] => ∃ cells, Shaped s cells
  | s,command :: rest => ∃ cells, Shaped s cells ∧ ∀ fresh turns, s.heap.Fresh fresh → cells.length < turns →
      ∃ next, perform turns fresh s command = some next ∧ AllShaped next rest

theorem Shows.shaped (shown : Shows s t) (ordered : Ordered t.plist) (single : Single t) :
    ∃ cells, Shaped s cells ∧ cells.length = t.plist.length := by
  obtain ⟨⟨cells,chain,content⟩,_,_,_⟩ := shown
  unfold Ordered at ordered
  unfold Single at single
  rw [←content,List.map_map] at ordered single
  exact ⟨cells,⟨chain,ordered,single⟩,by rw [←content,List.length_map]⟩

theorem obey_kept (ordered : Ordered t.plist) (single : Single t) (command : Command) :
    ∃ next, obey t command = some next ∧ Ordered next.plist ∧ Single next := by
  cases command with
  | stop => exact ⟨_,rfl,List.Pairwise.nil,List.nodup_nil⟩
  | event event =>
    have goes : ∃ next, Dhcps.perform t event = some next := by
      cases event with
      | timer =>
        obtain ⟨plist,ran,_⟩ := timer_owners t
        exact ⟨_,ran⟩
      | _ => exact ⟨_,rfl⟩
    obtain ⟨next,ran⟩ := goes
    exact ⟨next,ran,step_ordered ordered event ran,step_single single event ran⟩

theorem run_shaped (shown : Shows s t) (ordered : Ordered t.plist) (single : Single t) (commands : List Command) :
    AllShaped s commands := by
  induction commands generalizing s t with
  | nil =>
    obtain ⟨cells,shaped,_⟩ := shown.shaped ordered single
    exact ⟨cells,shaped⟩
  | cons command rest ih =>
    obtain ⟨cells,shaped,length⟩ := shown.shaped ordered single
    obtain ⟨next,obeyed,ordered',single'⟩ := obey_kept ordered single command
    refine ⟨cells,shaped,fun fresh turns free enough => ?_⟩
    obtain ⟨s',ran,shown'⟩ := perform_shows shown free (length ▸ enough) command obeyed
    exact ⟨s',ran,ih shown' ordered' single'⟩

-- From an empty pool on the list stays in shape, whatever the server is told to do.
theorem pool_shaped (lease : DhcpsLease) (renew : Bool) (leaseTime : UInt32) (heap : PoolHeap) (commands : List Command) :
    AllShaped ⟨lease,renew,leaseTime,heap,null⟩ commands := by
  have shown : Shows ⟨lease,renew,leaseTime,heap,null⟩ ⟨lease,[],renew,leaseTime⟩ :=
    ⟨⟨[],Chain.empty heap,rfl⟩,rfl,rfl,rfl⟩
  have ordered : Ordered [] := List.Pairwise.nil
  have single : Single ⟨lease,[],renew,leaseTime⟩ := List.nodup_nil
  exact run_shaped shown ordered single commands

end Commands

end Nodes

end NonosLinkLayer.Dhcps
