import NonosLinkLayer.Napt.System

namespace NonosLinkLayer.Napt
open ByteMemory PackedTable

-- The code of Table with every access to the tables checked against their size.
def NaptData.entry (d : NaptData) (i : Nat) : Except Trap NaptTable := within d.naptMax (i + 1) (d.table i)

def NaptData.store (d : NaptData) (i : Nat) (f : NaptTable → NaptTable) : Except Trap NaptData :=
  within d.naptMax (i + 1) (d.modify i f)

def NaptData.follow (d : NaptData) (i : Nat) (f : NaptTable → NaptTable) : Except Trap NaptData :=
  if i ≠ noIdx then d.store i f else .ok d

def NaptData.mapping (d : NaptData) (i : Nat) : Except Trap PortmapTable :=
  match d.portmapTable[i]? with
  | some m => .ok m
  | none => .error .beyond

def NaptData.remap (d : NaptData) (i : Nat) (m : PortmapTable) : Except Trap NaptData :=
  within d.portmapTable.length (i + 1) {d with portmapTable := d.portmapTable.set i m}

def ipNaptInsertGuarded (d : NaptData) (ti : Nat) : Except Trap NaptData :=
  if ti ≠ d.free then .error (.fault .assertion)
  else do
    let t ← d.entry ti
    let d := {d with free := t.next}
    let d ← d.store ti fun t => {t with prev := noIdx}
    let d ← d.store ti fun t => {t with next := d.list}
    let d ← d.follow d.list fun t => {t with prev := ti}
    let d := {d with list := ti}
    let d := if d.listLast = noIdx then {d with listLast := ti} else d
    let t ← d.entry ti
    return d.count t.proto 1

def ipNaptFreeGuarded (d : NaptData) (ti : Nat) : Except Trap NaptData := do
  let t ← d.entry ti
  let d := if ti = d.list then {d with list := t.next} else d
  let t ← d.entry ti
  let d := if ti = d.listLast then {d with listLast := t.prev} else d
  let t ← d.entry ti
  let d ← d.follow t.next fun x => {x with prev := t.prev}
  let t ← d.entry ti
  let d ← d.follow t.prev fun x => {x with next := t.next}
  let d ← d.store ti fun t => {t with prev := noIdx}
  let d ← d.store ti fun t => {t with next := d.free}
  let d := {d with free := ti}
  let t ← d.entry ti
  return d.count t.proto (-1)

def findPortLoopGuarded (d : NaptData) (proto : UInt8) (port : UInt16) : Nat → Nat → Except Trap Bool
  | turns,i =>
    if i = noIdx then .ok false
    else match turns with
      | 0 => .error (.fault .endless)
      | turns+1 => do
        let t ← d.entry i
        if t.proto = proto ∧ t.mport = port then return true
        else findPortLoopGuarded d proto port turns t.next

def ipNaptFindPortGuarded (d : NaptData) (proto : UInt8) (port : UInt16) : Except Trap Bool :=
  findPortLoopGuarded d proto port d.naptMax d.list

def portmapScan (d : NaptData) (hit : PortmapTable → Bool) : Nat → Nat → Except Trap (Option (Nat × PortmapTable))
  | 0,_ => .ok none
  | turns+1,i => do
    let p ← d.mapping i
    if !p.valid then return none
    else if hit p then return some (i,p)
    else portmapScan d hit turns (i+1)

def ipPortmapFindGuarded (d : NaptData) (proto : UInt8) (mport : UInt16) : Except Trap (Option (Nat × PortmapTable)) :=
  portmapScan d (fun p => p.proto == proto && p.mport == mport) d.portmapTable.length 0

def ipPortmapFindDestGuarded (d : NaptData) (proto : UInt8) (dport : UInt16) (daddr : UInt32) :
    Except Trap (Option (Nat × PortmapTable)) :=
  portmapScan d (fun p => p.proto == proto && p.dport == dport && p.daddr == daddr) d.portmapTable.length 0

def portmapAddScan (proto : UInt8) (maddr : UInt32) (mport : UInt16) (daddr : UInt32) (dport : UInt16) :
    Nat → Nat → NaptData → Except Trap (NaptData × UInt8)
  | 0,_,d => .ok (d,0)
  | turns+1,i,d => do
    let p ← d.mapping i
    if p.valid && p.proto == proto && p.mport == mport then
      let d ← d.remap i {p with dport := dport,daddr := daddr}
      portmapAddScan proto maddr mport daddr dport turns (i+1) d
    else if !p.valid then
      let d ← d.remap i {maddr := maddr,daddr := daddr,mport := mport,dport := dport,proto := proto,valid := true}
      return (d,1)
    else portmapAddScan proto maddr mport daddr dport turns (i+1) d

def ipPortmapAddGuarded (d : NaptData) (proto : UInt8) (maddr : UInt32) (mport : UInt16) (daddr : UInt32)
    (dport : UInt16) : Except Trap (NaptData × UInt8) :=
  portmapAddScan proto maddr (swap16 mport) daddr (swap16 dport) d.portmapTable.length 0 d

def portmapShift : Nat → Nat → NaptData → Except Trap NaptData
  | 0,_,d => .ok d
  | turns+1,m,d => do
    let p ← d.mapping (m + 1)
    let d ← d.remap m p
    portmapShift turns (m+1) d

-- Without entries `last` points in front of the table, and nothing is found.
def ipPortmapRemoveGuarded (d : NaptData) (proto : UInt8) (mport : UInt16) : Except Trap (NaptData × UInt8) := do
  let last := d.portmapTable.length - 1
  match ←ipPortmapFindGuarded d proto (swap16 mport) with
  | none => return (d,0)
  | some (m,_) =>
    let d ← portmapShift (last - m) m d
    let p ← d.mapping last
    let d ← d.remap last {p with valid := false}
    return (d,1)

def tcpListeningGuarded (d : NaptData) (pcbs : LocalPcbs) (port : UInt16) : Except Trap Bool :=
  if pcbs.tcpListen.contains port then .ok true
  else do return (←ipPortmapFindGuarded d ipProtoTcp port).isSome

def udpListeningGuarded (d : NaptData) (pcbs : LocalPcbs) (port : UInt16) : Except Trap Bool :=
  if pcbs.udp.contains port then .ok true
  else do return (←ipPortmapFindGuarded d ipProtoUdp port).isSome

def alsoWhen (c : Prop) [Decidable c] (x : Except Trap Bool) : Except Trap Bool := if c then x else .ok false

def newPortLoopGuarded (d : NaptData) (pcbs : LocalPcbs) (proto : UInt8) : List Draw → Except Trap UInt16
  | [] => .error (.fault .draws)
  | draw :: draws => do
    let port := drawnPort draw
    if ←ipNaptFindPortGuarded d proto port then newPortLoopGuarded d pcbs proto draws
    else
      let taken ← alsoWhen (proto = ipProtoTcp) (tcpListeningGuarded d pcbs port)
      if taken then newPortLoopGuarded d pcbs proto draws
      else
        let taken ← alsoWhen (proto = ipProtoUdp) (udpListeningGuarded d pcbs port)
        if taken then newPortLoopGuarded d pcbs proto draws
        else return port

def ipNaptNewPortGuarded (d : NaptData) (pcbs : LocalPcbs) (proto : UInt8) (port : UInt16) (draws : List Draw) :
    Except Trap UInt16 := do
  if ipNaptPortRangeStart ≤ swap16 port ∧ swap16 port ≤ ipNaptPortRangeEnd then
    let used ← ipNaptFindPortGuarded d proto port
    let listening ← alsoWhen (used = false) (tcpListeningGuarded d pcbs port)
    if !used && !listening then return port
    else newPortLoopGuarded d pcbs proto draws
  else newPortLoopGuarded d pcbs proto draws

def findLoopGuarded (now : UInt32) (wanted : Session → Bool) :
    Nat → NaptData → Nat → Except Trap (NaptData × Option Nat)
  | turns,d,i =>
    if i = noIdx then .ok (d,none)
    else match turns with
      | 0 => .error (.fault .endless)
      | turns+1 => do
        let t ← d.entry i
        if expired now t.toSession then
          let d ← ipNaptFreeGuarded d i
          findLoopGuarded now wanted turns d t.next
        else if wanted t.toSession then
          let d ← d.store i fun t => {t with last := now}
          return (d,some i)
        else findLoopGuarded now wanted turns d t.next

def ipNaptFindGuarded (d : NaptData) (now : UInt32) (proto : UInt8) (addr : UInt32) (port mport : UInt16)
    (dest : Bool) : Except Trap (NaptData × Option Nat) :=
  findLoopGuarded now (lookedUp proto addr port mport dest) d.naptMax d d.list

def ipNaptAddGuarded (d : NaptData) (now : UInt32) (pcbs : LocalPcbs) (draws : List Draw) (proto : UInt8)
    (src : UInt32) (sport : UInt16) (dest : UInt32) (dport : UInt16) : Except Trap (NaptData × UInt16) := do
  let (d,t) ← ipNaptFindGuarded d now proto src sport 0 false
  match t with
  | some t =>
    let d ← d.store t fun t => {t with last := now,dest := dest,dport := dport}
    let d ← ipNaptFreeGuarded d t
    let d ← ipNaptInsertGuarded d t
    let t ← d.entry t
    return (d,t.mport)
  | none =>
    if d.free = noIdx then return (d,0)
    else
      let t := d.free
      let mport ← if proto = ipProtoTcp then ipNaptNewPortGuarded d pcbs ipProtoTcp sport draws else pure sport
      let mport ← if proto = ipProtoUdp then ipNaptNewPortGuarded d pcbs ipProtoUdp sport draws else pure mport
      let d ← d.store t fun t => {t with
        last := now,src := src,dest := dest,sport := sport,dport := dport,mport := mport,proto := proto
        fin1 := false,fin2 := false,finack1 := false,finack2 := false,synack := false,rst := false}
      let d ← ipNaptInsertGuarded d t
      return (d,mport)

section Portmap
variable {d : NaptData} {i : Nat} {proto : UInt8} {maddr daddr : UInt32} {mport dport : UInt16}
  {before after : List PortmapTable}

theorem mapping_ok {m : PortmapTable} (split : d.portmapTable = before ++ m :: after) :
    d.mapping before.length = .ok m := by
  unfold NaptData.mapping
  rw [split,List.getElem?_append_right (Nat.le_refl _),Nat.sub_self]
  rfl

theorem remap_ok {m : PortmapTable} (split : d.portmapTable = before ++ m :: after) (m' : PortmapTable) :
    d.remap before.length m' = .ok {d with portmapTable := before ++ m' :: after} := by
  have fits : before.length + 1 ≤ d.portmapTable.length := by
    rw [split,List.length_append,List.length_cons]
    omega
  unfold NaptData.remap
  rw [within_ok fits,split,List.set_append_right _ _ (Nat.le_refl _),Nat.sub_self]
  rfl

theorem portmapScan_eq (hit : PortmapTable → Bool) (split : d.portmapTable = before ++ after) :
    portmapScan d hit after.length before.length = .ok (scan (·.valid) hit before.length after) := by
  induction after generalizing before with
  | nil => rfl
  | cons head rest ih =>
    have onward := @ih (before ++ [head]) (by rw [split]; simp)
    rw [List.length_append,List.length_singleton] at onward
    rw [List.length_cons,portmapScan,scan,mapping_ok split,ok_then]
    split_ifs
    · rfl
    · rfl
    · exact onward

theorem portmapAddScan_eq (split : d.portmapTable = before ++ after) :
    portmapAddScan proto maddr mport daddr dport after.length before.length d =
      .ok ({d with portmapTable := before ++ (portmapAddLoop proto maddr mport daddr dport after).1},
        (portmapAddLoop proto maddr mport daddr dport after).2) := by
  induction after generalizing before d with
  | nil =>
    rw [List.length_nil,portmapAddScan,portmapAddLoop,←split]
  | cons head rest ih =>
    -- behind an entry that stays in use, the loop goes on with one more in front
    have onward : ∀ m d', d'.portmapTable = before ++ m :: rest →
        portmapAddScan proto maddr mport daddr dport rest.length (before.length + 1) d' =
          .ok ({d' with portmapTable := before ++ m :: (portmapAddLoop proto maddr mport daddr dport rest).1},
            (portmapAddLoop proto maddr mport daddr dport rest).2) := by
      intro m d' split'
      have later := @ih d' (before ++ [m]) (by rw [split']; simp)
      rw [List.length_append,List.length_singleton,List.append_assoc] at later
      exact later
    rw [List.length_cons,portmapAddScan,portmapAddLoop,mapping_ok split,ok_then]
    split_ifs
    · rw [remap_ok split,ok_then]
      exact onward _ _ rfl
    · rw [remap_ok split,ok_then]
      rfl
    · exact onward head d split

theorem portmapShift_eq {m : PortmapTable} (split : d.portmapTable = before ++ m :: after) :
    portmapShift after.length before.length d =
      .ok {d with portmapTable := before ++ after ++ [after.getLast?.getD m]} := by
  induction after generalizing before d m with
  | nil =>
    rw [List.length_nil,portmapShift,List.append_nil]
    exact congrArg _ (by rw [List.getLast?_nil,Option.getD_none,←split])
  | cons head rest ih =>
    have next : d.mapping (before.length + 1) = .ok head := by
      have behind : d.portmapTable = (before ++ [m]) ++ head :: rest := by rw [split]; simp
      have read := mapping_ok behind
      rwa [List.length_append] at read
    have later := @ih {d with portmapTable := before ++ head :: head :: rest} (before ++ [head]) head (by simp)
    rw [List.length_append,List.length_singleton] at later
    rw [List.length_cons,portmapShift,next,ok_then,remap_ok split,ok_then,later,List.getLast?_cons]
    simp

theorem portmapFindGuarded_eq (d : NaptData) (proto : UInt8) (mport : UInt16) :
    ipPortmapFindGuarded d proto mport = .ok (ipPortmapFind d proto mport) :=
  @portmapScan_eq d [] d.portmapTable _ rfl

theorem portmapFindDestGuarded_eq (d : NaptData) (proto : UInt8) (dport : UInt16) (daddr : UInt32) :
    ipPortmapFindDestGuarded d proto dport daddr = .ok (ipPortmapFindDest d proto dport daddr) :=
  @portmapScan_eq d [] d.portmapTable _ rfl

theorem portmapAddGuarded_eq (d : NaptData) (proto : UInt8) (maddr : UInt32) (mport : UInt16) (daddr : UInt32)
    (dport : UInt16) :
    ipPortmapAddGuarded d proto maddr mport daddr dport = .ok (ipPortmapAdd d proto maddr mport daddr dport) :=
  @portmapAddScan_eq d _ _ _ _ _ [] d.portmapTable rfl

theorem portmapRemoveGuarded_eq (d : NaptData) (proto : UInt8) (mport : UInt16) :
    ipPortmapRemoveGuarded d proto mport = .ok (ipPortmapRemove d proto mport) := by
  unfold ipPortmapRemoveGuarded ipPortmapRemove
  rw [portmapFindGuarded_eq,ok_then]
  cases found : ipPortmapFind d proto (swap16 mport) with
  | none => rfl
  | some r =>
    obtain ⟨k,m⟩ := r
    obtain ⟨before,after,split,place,_⟩ := scan_some found
    rw [Nat.zero_add] at place
    subst place
    dsimp only
    have last : d.portmapTable.length - 1 = (before ++ after).length := by
      rw [split,List.length_append,List.length_append,List.length_cons]
      omega
    have turns : (before ++ after).length - before.length = after.length := by
      rw [List.length_append]
      omega
    rw [last,turns,portmapShift_eq split,ok_then,mapping_ok rfl,ok_then,remap_ok rfl,ok_then,split,shift_eq]
    rfl

end Portmap

def Linked (n i : Nat) : Prop := i = noIdx ∨ i < n

structure Inside (n : Nat) (d : NaptData) : Prop where
  size : d.naptMax = n
  list : Linked n d.list
  listLast : Linked n d.listLast
  free : Linked n d.free
  next : ∀ i < n, Linked n (d.table i).next
  prev : ∀ i < n, Linked n (d.table i).prev

section Inside
variable {n i x : Nat} {d : NaptData}

theorem Linked.there (linked : Linked n i) (some : i ≠ noIdx) : i < n := linked.resolve_left some

theorem linked_none : Linked n noIdx := .inl rfl

namespace Inside

theorem entry (inside : Inside n d) (there : i < n) : d.entry i = .ok (d.table i) :=
  within_ok (by rw [inside.size]; omega)

theorem store (inside : Inside n d) (there : i < n) (f : NaptTable → NaptTable) : d.store i f = .ok (d.modify i f) :=
  within_ok (by rw [inside.size]; omega)

theorem follow (inside : Inside n d) (linked : Linked n i) (f : NaptTable → NaptTable) :
    d.follow i f = .ok (if i ≠ noIdx then d.modify i f else d) := by
  unfold NaptData.follow
  by_cases some : i ≠ noIdx
  · rw [if_pos some,if_pos some]
    exact inside.store (linked.there some) f
  · rw [if_neg some,if_neg some]

theorem modify (inside : Inside n d) {f : NaptTable → NaptTable} (next : Linked n (f (d.table i)).next)
    (prev : Linked n (f (d.table i)).prev) : Inside n (d.modify i f) := by
  have each : ∀ j < n, Linked n ((d.modify i f).table j).next ∧ Linked n ((d.modify i f).table j).prev := by
    intro j there
    unfold NaptData.modify
    dsimp only
    by_cases same : j = i
    · subst same
      rw [Function.update_self]
      exact ⟨next,prev⟩
    · rw [Function.update_of_ne same]
      exact ⟨inside.next j there,inside.prev j there⟩
  exact ⟨inside.size,inside.list,inside.listLast,inside.free,fun j there => (each j there).1,fun j there => (each j there).2⟩

theorem setPrev (inside : Inside n d) (there : i < n) (linked : Linked n x) :
    Inside n (d.modify i fun t => {t with prev := x}) :=
  inside.modify (inside.next i there) linked

theorem setNext (inside : Inside n d) (there : i < n) (linked : Linked n x) :
    Inside n (d.modify i fun t => {t with next := x}) :=
  inside.modify linked (inside.prev i there)

theorem setHead (inside : Inside n d) (linked : Linked n x) : Inside n {d with list := x} :=
  ⟨inside.size,linked,inside.listLast,inside.free,inside.next,inside.prev⟩

theorem setLast (inside : Inside n d) (linked : Linked n x) : Inside n {d with listLast := x} :=
  ⟨inside.size,inside.list,linked,inside.free,inside.next,inside.prev⟩

theorem setFree (inside : Inside n d) (linked : Linked n x) : Inside n {d with free := x} :=
  ⟨inside.size,inside.list,inside.listLast,linked,inside.next,inside.prev⟩

theorem setTable (inside : Inside n d) (table : List PortmapTable) : Inside n {d with portmapTable := table} :=
  ⟨inside.size,inside.list,inside.listLast,inside.free,inside.next,inside.prev⟩

theorem count (inside : Inside n d) (proto : UInt8) (delta : Int) : Inside n (d.count proto delta) := by
  unfold NaptData.count
  split_ifs <;> exact ⟨inside.size,inside.list,inside.listLast,inside.free,inside.next,inside.prev⟩

theorem ite {c : Prop} [Decidable c] {d' : NaptData} (one : c → Inside n d') (other : Inside n d) :
    Inside n (if c then d' else d) := by
  split_ifs with holds
  · exact one holds
  · exact other

theorem freed (inside : Inside n d) (there : i < n) :
    ipNaptFreeGuarded d i = .ok (ipNaptFree d i) ∧ Inside n (ipNaptFree d i) := by
  unfold ipNaptFree
  extract_lets d1 d2 d3 d4 d5 d6 d7
  have one : Inside n d1 := inside.ite fun _ => inside.setHead (inside.next i there)
  have two : Inside n d2 := one.ite fun _ => one.setLast (one.prev i there)
  have three : Inside n d3 := two.ite fun some => two.setPrev ((two.next i there).there some) (two.prev i there)
  have four : Inside n d4 := three.ite fun some => three.setNext ((three.prev i there).there some) (three.next i there)
  have five : Inside n d5 := four.setPrev there linked_none
  have six : Inside n d6 := five.setNext there five.free
  have seven : Inside n d7 := six.setFree (.inr there)
  refine ⟨?_,seven.count _ _⟩
  unfold ipNaptFreeGuarded
  rw [inside.entry there,ok_then]
  dsimp only
  rw [one.entry there,ok_then,two.entry there,ok_then,two.follow (two.next i there),ok_then]
  rw [three.entry there,ok_then,three.follow (three.prev i there),ok_then]
  rw [four.store there,ok_then,five.store there,ok_then,seven.entry there,ok_then]
  rfl

theorem inserted (inside : Inside n d) (there : i < n) :
    ipNaptInsertGuarded d i = lift (ipNaptInsert d i) ∧ ∀ d', ipNaptInsert d i = .ok d' → Inside n d' := by
  unfold ipNaptInsert
  by_cases foreign : i ≠ d.free
  · unfold ipNaptInsertGuarded
    rw [if_pos foreign,if_pos foreign]
    exact ⟨rfl,nofun⟩
  rw [if_neg foreign]
  extract_lets d1 d2 d3 d4 d5 d6
  have one : Inside n d1 := inside.setFree (inside.next i there)
  have two : Inside n d2 := one.setPrev there linked_none
  have three : Inside n d3 := two.setNext there two.list
  have four : Inside n d4 := three.ite fun some => three.setPrev (three.list.there some) (.inr there)
  have five : Inside n d5 := four.setHead (.inr there)
  have six : Inside n d6 := five.ite fun _ => five.setLast (.inr there)
  refine ⟨?_,fun d' same => ?_⟩
  · unfold ipNaptInsertGuarded
    rw [if_neg foreign,inside.entry there,ok_then]
    dsimp only
    rw [one.store there,ok_then,two.store there,ok_then,three.follow three.list,ok_then,six.entry there,ok_then]
    rfl
  · cases same
    exact six.count _ _

theorem findPortLoop (inside : Inside n d) (proto : UInt8) (port : UInt16) (turns : Nat) (linked : Linked n i) :
    findPortLoopGuarded d proto port turns i = lift (findPortLoop d proto port turns i) := by
  induction turns generalizing i with
  | zero =>
    unfold findPortLoopGuarded Napt.findPortLoop
    split_ifs <;> rfl
  | succ turns ih =>
    unfold findPortLoopGuarded Napt.findPortLoop
    by_cases none : i = noIdx
    · rw [if_pos none,if_pos none]
      rfl
    · have there := linked.there none
      rw [if_neg none,if_neg none,inside.entry there]
      dsimp only
      rw [ok_then]
      split_ifs
      · rfl
      · exact ih (inside.next i there)

theorem findPort (inside : Inside n d) (proto : UInt8) (port : UInt16) :
    ipNaptFindPortGuarded d proto port = lift (ipNaptFindPort d proto port) :=
  inside.findPortLoop proto port d.naptMax inside.list

theorem findLoop (now : UInt32) (wanted : Session → Bool) (turns : Nat) :
    ∀ {d i}, Inside n d → Linked n i →
      findLoopGuarded now wanted turns d i = lift (findLoop now wanted turns d i) ∧
      ∀ d' t, findLoop now wanted turns d i = .ok (d',t) → Inside n d' ∧ ∀ k, t = some k → k < n := by
  induction turns with
  | zero =>
    intro d i inside linked
    unfold findLoopGuarded Napt.findLoop
    split_ifs
    · exact ⟨rfl,fun d' t same => by cases same; exact ⟨inside,fun k none => by cases none⟩⟩
    · exact ⟨rfl,fun d' t fault => by cases fault⟩
  | succ turns ih =>
    intro d i inside linked
    unfold findLoopGuarded Napt.findLoop
    by_cases none : i = noIdx
    · rw [if_pos none,if_pos none]
      exact ⟨rfl,fun d' t same => by cases same; exact ⟨inside,fun k none => by cases none⟩⟩
    have there := linked.there none
    have onward := inside.next i there
    rw [if_neg none,if_neg none,inside.entry there]
    dsimp only
    rw [ok_then]
    by_cases old : expired now (d.table i).toSession
    · obtain ⟨same,freed⟩ := inside.freed there
      rw [if_pos old,if_pos old,same,ok_then]
      exact ih freed onward
    rw [if_neg old,if_neg old]
    by_cases hit : wanted (d.table i).toSession
    · rw [if_pos hit,if_pos hit,inside.store there,ok_then]
      refine ⟨rfl,fun d' t same => ?_⟩
      cases same
      exact ⟨inside.modify onward (inside.prev i there),fun k same => by cases same; exact there⟩
    · rw [if_neg hit,if_neg hit]
      exact ih inside onward

theorem find (inside : Inside n d) (now : UInt32) (proto : UInt8) (addr : UInt32) (port mport : UInt16) (dest : Bool) :
    ipNaptFindGuarded d now proto addr port mport dest = lift (ipNaptFind d now proto addr port mport dest) ∧
    ∀ d' t, ipNaptFind d now proto addr port mport dest = .ok (d',t) → Inside n d' ∧ ∀ k, t = some k → k < n :=
  findLoop now _ d.naptMax inside inside.list

end Inside

theorem alsoWhen_ok (c : Prop) [Decidable c] (b : Bool) : alsoWhen c (.ok b) = .ok (decide c && b) := by
  unfold alsoWhen
  split_ifs with holds <;> simp [holds]

theorem ok_or (a b : Bool) : (if a = true then .ok true else pure b : Except Trap Bool) = .ok (a || b) := by cases a <;> rfl

theorem tcpListeningGuarded_eq (d : NaptData) (pcbs : LocalPcbs) (port : UInt16) :
    tcpListeningGuarded d pcbs port = .ok (tcpListening d pcbs port) := by
  unfold tcpListeningGuarded tcpListening
  rw [portmapFindGuarded_eq,ok_then]
  exact ok_or _ _

theorem udpListeningGuarded_eq (d : NaptData) (pcbs : LocalPcbs) (port : UInt16) :
    udpListeningGuarded d pcbs port = .ok (udpListening d pcbs port) := by
  unfold udpListeningGuarded udpListening
  rw [portmapFindGuarded_eq,ok_then]
  exact ok_or _ _

namespace Inside

theorem newPortLoop (inside : Inside n d) (pcbs : LocalPcbs) (proto : UInt8) (draws : List Draw) :
    newPortLoopGuarded d pcbs proto draws = lift (newPortLoop d pcbs proto draws) := by
  induction draws with
  | nil => rfl
  | cons draw draws ih =>
    unfold newPortLoopGuarded Napt.newPortLoop
    dsimp only
    rw [inside.findPort,lift_bind,tcpListeningGuarded_eq,udpListeningGuarded_eq,alsoWhen_ok,alsoWhen_ok]
    congr 1
    funext used
    rw [ok_then,ok_then]
    simp only [Bool.and_eq_true,decide_eq_true_eq,ih]
    split_ifs <;> rfl

theorem newPort (inside : Inside n d) (pcbs : LocalPcbs) (proto : UInt8) (port : UInt16) (draws : List Draw) :
    ipNaptNewPortGuarded d pcbs proto port draws = lift (ipNaptNewPort d pcbs proto port draws) := by
  unfold ipNaptNewPortGuarded ipNaptNewPort
  rw [inside.newPortLoop,inside.findPort,tcpListeningGuarded_eq]
  by_cases ranged : ipNaptPortRangeStart ≤ swap16 port ∧ swap16 port ≤ ipNaptPortRangeEnd
  · rw [if_pos ranged,if_pos ranged,lift_bind]
    congr 1
    funext used
    rw [alsoWhen_ok,ok_then]
    cases used
    · simp only [decide_true,Bool.true_and]
      split_ifs <;> rfl
    · rfl
  · rw [if_neg ranged,if_neg ranged]

theorem opens (inside : Inside n d) (held : d.free < n) (mport : UInt16) (f : NaptTable → NaptTable)
    (links : ∀ t, (f t).next = t.next ∧ (f t).prev = t.prev) :
    (do let d1 ← d.store d.free f
        let d1 ← ipNaptInsertGuarded d1 d.free
        return (d1,mport)) = lift (do
      let d1 ← ipNaptInsert (d.modify d.free f) d.free
      return (d1,mport)) ∧
    ∀ d' m, (do let d1 ← ipNaptInsert (d.modify d.free f) d.free; return (d1,mport)) =
      (Except.ok (d',m) : Except Fault (NaptData × UInt16)) → Inside n d' := by
  have written : Inside n (d.modify d.free f) := by
    refine inside.modify ?_ ?_
    · rw [(links _).1]
      exact inside.next _ held
    · rw [(links _).2]
      exact inside.prev _ held
  obtain ⟨same,front⟩ := written.inserted held
  rw [inside.store held,ok_then,same]
  cases inserted : ipNaptInsert (d.modify d.free f) d.free with
  | error fault => exact ⟨rfl,nofun⟩
  | ok d' => exact ⟨rfl,fun d'' m result => by cases result; exact front d' inserted⟩

theorem add (inside : Inside n d) (now : UInt32) (pcbs : LocalPcbs) (draws : List Draw) (proto : UInt8)
    (src : UInt32) (sport : UInt16) (dest : UInt32) (dport : UInt16) :
    ipNaptAddGuarded d now pcbs draws proto src sport dest dport = lift (ipNaptAdd d now pcbs draws proto src sport dest dport) ∧
    ∀ d' mport, ipNaptAdd d now pcbs draws proto src sport dest dport = .ok (d',mport) → Inside n d' := by
  obtain ⟨same,found⟩ := inside.find now proto src sport 0 false
  unfold ipNaptAddGuarded ipNaptAdd
  rw [same]
  cases ran : ipNaptFind d now proto src sport 0 false with
  | error fault => exact ⟨rfl,nofun⟩
  | ok r =>
    obtain ⟨d1,t⟩ := r
    obtain ⟨inside1,there⟩ := found d1 t ran
    rw [lift_ok,ok_then,ok_then]
    cases t with
    | some t =>
      have held := there t rfl
      have written : Inside n (d1.modify t fun t => {t with last := now,dest := dest,dport := dport}) :=
        inside1.modify (inside1.next t held) (inside1.prev t held)
      obtain ⟨same,freed⟩ := written.freed held
      obtain ⟨same',front⟩ := freed.inserted held
      dsimp only
      rw [inside1.store held,ok_then,same,ok_then,same']
      cases inserted : ipNaptInsert (ipNaptFree (d1.modify t fun t => {t with last := now,dest := dest,dport := dport}) t) t with
      | error fault => exact ⟨rfl,nofun⟩
      | ok d' =>
        have kept := front d' inserted
        rw [lift_ok,ok_then,ok_then,kept.entry held]
        exact ⟨rfl,fun d' mport result => by cases result; exact kept⟩
    | none =>
      dsimp only
      by_cases full : d1.free = noIdx
      · rw [if_pos full,if_pos full]
        exact ⟨rfl,fun d' mport result => by cases result; exact inside1⟩
      have held := inside1.free.there full
      rw [if_neg full,if_neg full]
      by_cases tcp : proto = ipProtoTcp
      · have other : proto ≠ ipProtoUdp := by rw [tcp]; decide
        simp only [if_pos tcp,if_neg other]
        rw [inside1.newPort]
        cases ipNaptNewPort d1 pcbs ipProtoTcp sport draws with
        | error fault => exact ⟨rfl,nofun⟩
        | ok mport => exact inside1.opens held mport _ fun t => ⟨rfl,rfl⟩
      by_cases udp : proto = ipProtoUdp
      · simp only [if_neg tcp,if_pos udp]
        rw [inside1.newPort]
        cases ipNaptNewPort d1 pcbs ipProtoUdp sport draws with
        | error fault => exact ⟨rfl,nofun⟩
        | ok mport => exact inside1.opens held mport _ fun t => ⟨rfl,rfl⟩
      · simp only [if_neg tcp,if_neg udp]
        exact inside1.opens held sport _ fun t => ⟨rfl,rfl⟩

end Inside
end Inside

end NonosLinkLayer.Napt
