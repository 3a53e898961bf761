import NonosLinkLayer.Napt.Guarded

namespace NonosLinkLayer.Napt
open ByteMemory

def deref (naptData : Option NaptData) : Except Trap NaptData :=
  match naptData with
  | some d => .ok d
  | none => .error .null

def ipNaptRecvGuarded (naptData : Option NaptData) (now : UInt32) (p : Packet) :
    Except Trap (Option NaptData × Packet) :=
  match naptData with
  | none => .ok (none,p)
  | some d =>
    if iphProto p = ipProtoIcmp then
      if iechoType p = icmpEr then do
        let (d,t) ← ipNaptFindGuarded d now ipProtoIcmp (iphSrc p) (iechoId p) (iechoId p) true
        match t with
        | none => return (some d,p)
        | some t =>
          let e ← d.entry t
          return (some d,ipNaptModifyAddr p 16 e.src)
      else .ok (some d,p)
    else if iphProto p = ipProtoTcp then do
      match ←ipPortmapFindGuarded d ipProtoTcp (portDest p) with
      | some (_,m) => return (some d,rewriteTcp p true m.dport m.daddr)
      | none =>
        let (d,t) ← ipNaptFindGuarded d now ipProtoTcp (iphSrc p) (portSrc p) (portDest p) true
        match t with
        | none => return (some d,p)
        | some t =>
          let e ← d.entry t
          let p := rewriteTcp p true e.sport e.src
          let d ← d.store t fun t => {t with toSession := recordInbound (tcphFlags p) t.toSession}
          return (some d,p)
    else if iphProto p = ipProtoUdp then do
      match ←ipPortmapFindGuarded d ipProtoUdp (portDest p) with
      | some (_,m) => return (some d,rewriteUdp p true m.dport m.daddr)
      | none =>
        let (d,t) ← ipNaptFindGuarded d now ipProtoUdp (iphSrc p) (portSrc p) (portDest p) true
        match t with
        | none => return (some d,p)
        | some t =>
          let e ← d.entry t
          return (some d,rewriteUdp p true e.sport e.src)
    else .ok (some d,p)

def ipNaptForwardGuarded (naptData : Option NaptData) (now : UInt32) (pcbs : LocalPcbs) (draws : List Draw)
    (inp outp : Netif) (p : Packet) : Except Trap (Option NaptData × Packet × Err × Bool) :=
  if !inp.napt then .ok (naptData,p,.ok,false)
  else if iphProto p = ipProtoIcmp then
    if iechoType p = icmpEcho then do
      let d ← deref naptData
      let (d,_) ← ipNaptAddGuarded d now pcbs draws ipProtoIcmp (iphSrc p) (iechoId p) (iphDest p) (iechoId p)
      return (some d,ipNaptModifyAddr p 12 outp.ipAddr,.ok,false)
    else .ok (naptData,p,.ok,false)
  else if iphProto p = ipProtoTcp then do
    let d ← deref naptData
    match ←ipPortmapFindDestGuarded d ipProtoTcp (portSrc p) (iphSrc p) with
    | some (_,m) => return (some d,rewriteTcp p false m.mport m.maddr,.ok,false)
    | none =>
      if tcphFlags p &&& (tcpSyn ||| tcpAck) = tcpSyn ∧ swap16 (portSrc p) ≥ 1024 then
        let (d,mport) ← ipNaptAddGuarded d now pcbs draws ipProtoTcp (iphSrc p) (portSrc p) (iphDest p) (portDest p)
        return (some d,rewriteTcp p false mport outp.ipAddr,.ok,false)
      else
        let (d,t) ← ipNaptFindGuarded d now ipProtoTcp (iphSrc p) (portSrc p) 0 false
        match t with
        | none => return (some d,p,.rte,true)
        | some t =>
          let e ← d.entry t
          if e.dest ≠ iphDest p ∨ e.dport ≠ portDest p then return (some d,p,.rte,true)
          else
            let d ← d.store t fun t => {t with toSession := recordOutbound (tcphFlags p) t.toSession}
            return (some d,rewriteTcp p false e.mport outp.ipAddr,.ok,false)
  else if iphProto p = ipProtoUdp then do
    let d ← deref naptData
    match ←ipPortmapFindDestGuarded d ipProtoUdp (portSrc p) (iphSrc p) with
    | some (_,m) => return (some d,rewriteUdp p false m.mport m.maddr,.ok,false)
    | none =>
      if swap16 (portSrc p) ≥ 1024 then
        let (d,mport) ← ipNaptAddGuarded d now pcbs draws ipProtoUdp (iphSrc p) (portSrc p) (iphDest p) (portDest p)
        return (some d,rewriteUdp p false mport outp.ipAddr,.ok,false)
      else
        let (d,t) ← ipNaptFindGuarded d now ipProtoUdp (iphSrc p) (portSrc p) 0 false
        match t with
        | none => return (some d,p,.rte,true)
        | some t =>
          let e ← d.entry t
          if e.dest ≠ iphDest p ∨ e.dport ≠ portDest p then return (some d,p,.rte,true)
          else return (some d,rewriteUdp p false e.mport outp.ipAddr,.ok,false)
  else .ok (naptData,p,.ok,false)

def linkLoop : Nat → Nat → NaptData → Except Trap NaptData
  | 0,i,d => d.store i fun t => {t with next := noIdx}
  | turns+1,i,d => do
    let d ← d.store i fun t => {t with next := i + 1}
    linkLoop turns (i+1) d

def ipNaptInitGuarded (naptData : Option NaptData) (natMax : UInt16) (portmapMax : UInt8)
    (calloc : Allocations) : Except Trap (Err × Option NaptData) :=
  match naptData with
  | some d => .ok (.buf,some d)
  | none =>
    if !calloc.data then .ok (.mem,none)
    else if !calloc.table then .ok (.mem,none)
    else if !calloc.portmapTable then .ok (.mem,none)
    else do
      let d ← linkLoop (natMax.toNat - 1) 0
        { table := fun _ => NaptTable.zero
          portmapTable := List.replicate portmapMax.toNat PortmapTable.zero
          nrActiveTcp := 0
          nrActiveUdp := 0
          nrActiveIcmp := 0
          list := noIdx
          listLast := noIdx
          free := 0
          naptMax := natMax.toNat }
      return (.ok,some d)

structure Interface extends Netif where
  num : UInt8
  up : Bool

def enableFirst (passes : Interface → Bool) (enable : Int) : List Interface → List Interface × Bool
  | [] => ([],false)
  | netif :: rest =>
    if passes netif then ({netif with napt := enable ≠ 0} :: rest,true)
    else
      let (rest,found) := enableFirst passes enable rest
      (netif :: rest,found)

def ipNaptEnable (netifs : List Interface) (addr : UInt32) (enable : Int) : List Interface × Bool :=
  enableFirst (fun netif => netif.up && netif.ipAddr != 0 && netif.ipAddr == addr) enable netifs

def ipNaptEnableNo (netifs : List Interface) (number : UInt8) (enable : Int) : List Interface × Bool :=
  enableFirst (fun netif => netif.num == number) enable netifs

section Link

def chained (i last : Nat) (t : NaptTable) (j : Nat) : NaptTable :=
  if i ≤ j ∧ j < last then {t with next := j + 1} else if j = last then {t with next := noIdx} else t

theorem linkLoop_eq (turns i : Nat) (d : NaptData) (fits : i + turns + 1 = d.naptMax) :
    linkLoop turns i d = .ok {d with table := fun j => chained i (i + turns) (d.table j) j} := by
  induction turns generalizing i d with
  | zero =>
    unfold linkLoop NaptData.store
    rw [within_ok (by omega)]
    unfold NaptData.modify
    congr 2
    funext j
    unfold chained
    by_cases here : j = i
    · subst here
      simp
    · rw [Function.update_of_ne here,if_neg (by omega),if_neg (by omega)]
  | succ turns ih =>
    have fits' : i + 1 + turns + 1 = (d.modify i fun t => {t with next := i + 1}).naptMax := by
      change _ = d.naptMax
      omega
    unfold linkLoop NaptData.store
    rw [within_ok (by omega),ok_then,ih _ _ fits']
    unfold NaptData.modify
    congr 2
    funext j
    dsimp only
    unfold chained
    by_cases here : j = i
    · subst here
      rw [Function.update_self,if_neg (by omega),if_neg (by omega),if_pos (by omega)]
    · rw [Function.update_of_ne here]
      by_cases inner : i ≤ j ∧ j < i + (turns + 1)
      · rw [if_pos inner,if_pos (by omega)]
      · rw [if_neg inner,if_neg (by omega)]
        by_cases last : j = i + (turns + 1)
        · rw [if_pos last,if_pos (by omega)]
        · rw [if_neg last,if_neg (by omega)]

theorem initGuarded_eq (naptData : Option NaptData) (natMax : UInt16) (portmapMax : UInt8) (calloc : Allocations)
    (some : natMax ≠ 0) :
    ipNaptInitGuarded naptData natMax portmapMax calloc = lift (ipNaptInit naptData natMax portmapMax calloc) := by
  have positive : natMax.toNat ≠ 0 := fun zero => some (UInt16.toNat_inj.mp zero)
  unfold ipNaptInitGuarded ipNaptInit
  cases naptData with
  | some d => rfl
  | none =>
    dsimp only
    split_ifs
    · rfl
    · rfl
    · rfl
    · rw [linkLoop_eq _ _ _ (by dsimp only; omega),ok_then]
      unfold emptyTables
      congr 4
      funext j
      unfold chained
      by_cases inner : j + 1 < natMax.toNat
      · rw [if_pos inner,if_pos (by omega)]
      · rw [if_neg inner,if_neg (by omega)]
        by_cases last : j + 1 = natMax.toNat
        · rw [if_pos last,if_pos (by omega)]
        · rw [if_neg last,if_neg (by omega)]

-- Without one, the loop writes the first entry all the same.
theorem initGuarded_none (portmapMax : UInt8) (calloc : Allocations)
    (all : (calloc.data && calloc.table && calloc.portmapTable) = true) :
    ipNaptInitGuarded none 0 portmapMax calloc = .error .beyond := by
  simp only [Bool.and_eq_true] at all
  unfold ipNaptInitGuarded
  simp only [all,Bool.not_true,Bool.false_eq_true,if_false]
  rfl

theorem initGuarded_failed (natMax : UInt16) (portmapMax : UInt8) (calloc : Allocations)
    (failed : (calloc.data && calloc.table && calloc.portmapTable) = false) :
    ipNaptInitGuarded none natMax portmapMax calloc = .ok (.mem,none) := by
  unfold ipNaptInitGuarded
  dsimp only
  split_ifs with data table portmapTable
  · rfl
  · rfl
  · rfl
  · simp_all

theorem emptyTables_inside (natMax : UInt16) (portmapMax : UInt8) (some : natMax ≠ 0) :
    Inside natMax.toNat (emptyTables natMax portmapMax) := by
  have positive : natMax.toNat ≠ 0 := fun zero => some (UInt16.toNat_inj.mp zero)
  refine ⟨rfl,linked_none,linked_none,.inr (Nat.pos_of_ne_zero positive),?_,?_⟩
  · intro i there
    unfold emptyTables
    dsimp only
    by_cases inner : i + 1 < natMax.toNat
    · rw [if_pos inner]
      exact .inr inner
    · rw [if_neg inner,if_pos (by omega)]
      exact linked_none
  · intro i there
    refine .inr ?_
    unfold emptyTables
    dsimp only
    split_ifs <;> exact Nat.pos_of_ne_zero positive

end Link

def Confined (n : Nat) (data : α → NaptData) (out : α → β) (x : Except Trap β) (y : Except Fault α) : Prop :=
  x = lift (y.map out) ∧ ∀ a, y = .ok a → Inside n (data a)

section Confined
variable {n : Nat} {d : NaptData} {now : UInt32} {p : Packet} {data : α → NaptData} {out : α → β}

theorem Confined.done {a : α} (ran : y = .ok a) (same : x = .ok (out a)) (inside : Inside n (data a)) :
    Confined n data out x y := by
  subst ran same
  exact ⟨rfl,fun _ result => by cases result; exact inside⟩

theorem Inside.findThen (inside : Inside n d) {f : NaptData × Option Nat → Except Trap β}
    {g : NaptData × Option Nat → Except Fault α}
    (onward : ∀ d' t, Inside n d' → (∀ k, t = some k → k < n) → Confined n data out (f (d',t)) (g (d',t))) :
    Confined n data out (ipNaptFindGuarded d now proto addr port mport dest >>= f)
      (ipNaptFind d now proto addr port mport dest >>= g) := by
  obtain ⟨same,found⟩ := inside.find now proto addr port mport dest
  rw [same]
  cases ran : ipNaptFind d now proto addr port mport dest with
  | error fault => exact ⟨rfl,nofun⟩
  | ok r =>
    obtain ⟨inside',there⟩ := found r.1 r.2 ran
    exact onward r.1 r.2 inside' there

theorem Inside.addThen (inside : Inside n d) {f : NaptData × UInt16 → Except Trap β}
    {g : NaptData × UInt16 → Except Fault α}
    (onward : ∀ d' mport, Inside n d' → Confined n data out (f (d',mport)) (g (d',mport))) :
    Confined n data out (ipNaptAddGuarded d now pcbs draws proto src sport dest dport >>= f)
      (ipNaptAdd d now pcbs draws proto src sport dest dport >>= g) := by
  obtain ⟨same,added⟩ := inside.add now pcbs draws proto src sport dest dport
  rw [same]
  cases ran : ipNaptAdd d now pcbs draws proto src sport dest dport with
  | error fault => exact ⟨rfl,nofun⟩
  | ok r => exact onward r.1 r.2 (added r.1 r.2 ran)

theorem Inside.record (inside : Inside n d) (there : i < n) (f : Session → Session) : Inside n (d.record i f) :=
  inside.modify (inside.next i there) (inside.prev i there)

theorem recvGuarded_eq (inside : Inside n d) (now : UInt32) (p : Packet) :
    Confined n Prod.fst (fun r => (some r.1,r.2)) (ipNaptRecvGuarded (some d) now p) (ipNaptRecv d now p) := by
  unfold ipNaptRecvGuarded ipNaptRecv
  dsimp only
  split_ifs with icmp reply tcp udp
  · refine inside.findThen fun d' t inside' there => ?_
    cases t with
    | none => exact .done rfl rfl inside'
    | some t =>
      dsimp only
      rw [inside'.entry (there t rfl)]
      exact .done rfl rfl inside'
  · exact .done rfl rfl inside
  · rw [portmapFindGuarded_eq,ok_then]
    cases ipPortmapFind d ipProtoTcp (portDest p) with
    | some m => exact .done rfl rfl inside
    | none =>
      refine inside.findThen fun d' t inside' there => ?_
      cases t with
      | none => exact .done rfl rfl inside'
      | some t =>
        dsimp only
        rw [inside'.entry (there t rfl),ok_then,inside'.store (there t rfl)]
        exact .done rfl rfl (inside'.record (there t rfl) _)
  · rw [portmapFindGuarded_eq,ok_then]
    cases ipPortmapFind d ipProtoUdp (portDest p) with
    | some m => exact .done rfl rfl inside
    | none =>
      refine inside.findThen fun d' t inside' there => ?_
      cases t with
      | none => exact .done rfl rfl inside'
      | some t =>
        dsimp only
        rw [inside'.entry (there t rfl)]
        exact .done rfl rfl inside'
  · exact .done rfl rfl inside

theorem forwardGuarded_eq (inside : Inside n d) (now : UInt32) (pcbs : LocalPcbs) (draws : List Draw)
    (inp outp : Netif) (p : Packet) :
    Confined n Forwarded.data (fun r => (some r.data,r.packet,r.err,r.unreach))
      (ipNaptForwardGuarded (some d) now pcbs draws inp outp p) (ipNaptForward d now pcbs draws inp outp p) := by
  unfold ipNaptForwardGuarded ipNaptForward deref
  dsimp only
  by_cases off : (!inp.napt) = true
  · rw [if_pos off,if_pos off]
    exact .done rfl rfl inside
  rw [if_neg off,if_neg off]
  by_cases icmp : iphProto p = ipProtoIcmp
  · rw [if_pos icmp,if_pos icmp]
    split_ifs with echo
    · exact inside.addThen fun d' mport inside' => .done rfl rfl inside'
    · exact .done rfl rfl inside
  rw [if_neg icmp,if_neg icmp]
  by_cases tcp : iphProto p = ipProtoTcp
  · rw [if_pos tcp,if_pos tcp,ok_then,portmapFindDestGuarded_eq,ok_then]
    cases ipPortmapFindDest d ipProtoTcp (portSrc p) (iphSrc p) with
    | some m => exact .done rfl rfl inside
    | none =>
      dsimp only
      split_ifs with opening
      · exact inside.addThen fun d' mport inside' => .done rfl rfl inside'
      · refine inside.findThen fun d' t inside' there => ?_
        cases t with
        | none => exact .done rfl rfl inside'
        | some t =>
          dsimp only
          rw [inside'.entry (there t rfl),ok_then]
          split_ifs with foreign
          · exact .done rfl rfl inside'
          · rw [inside'.store (there t rfl)]
            exact .done rfl rfl (inside'.record (there t rfl) _)
  rw [if_neg tcp,if_neg tcp]
  by_cases udp : iphProto p = ipProtoUdp
  · rw [if_pos udp,if_pos udp,ok_then,portmapFindDestGuarded_eq,ok_then]
    cases ipPortmapFindDest d ipProtoUdp (portSrc p) (iphSrc p) with
    | some m => exact .done rfl rfl inside
    | none =>
      dsimp only
      split_ifs with opening
      · exact inside.addThen fun d' mport inside' => .done rfl rfl inside'
      · refine inside.findThen fun d' t inside' there => ?_
        cases t with
        | none => exact .done rfl rfl inside'
        | some t =>
          dsimp only
          rw [inside'.entry (there t rfl),ok_then]
          split_ifs with foreign
          · exact .done rfl rfl inside'
          · exact .done rfl rfl inside'
  · rw [if_neg udp,if_neg udp]
    exact .done rfl rfl inside

theorem forwardGuarded_none (now : UInt32) (pcbs : LocalPcbs) (draws : List Draw) (inp outp : Netif) (p : Packet) :
    ipNaptForwardGuarded none now pcbs draws inp outp p =
      if inp.napt = false ∨ ¬ Outbound p then .ok (none,p,.ok,false) else .error .null := by
  unfold ipNaptForwardGuarded deref Outbound Transport
  cases on : inp.napt with
  | false => simp
  | true =>
    by_cases icmp : iphProto p = ipProtoIcmp
    · by_cases echo : iechoType p = icmpEcho <;> simp [icmp,echo,tcp_icmp.symm,udp_icmp.symm]
    by_cases tcp : iphProto p = ipProtoTcp
    · simp [tcp,tcp_icmp]
    by_cases udp : iphProto p = ipProtoUdp
    · simp [udp,udp_icmp,udp_tcp]
    · simp [icmp,tcp,udp]

end Confined

structure Node where
  netifs : List Interface
  napt : Option NaptData

-- What other code calls, in any order. Interfaces are named by their place in netif_list.
inductive ApiCall where
  | init (natMax : UInt16) (portmapMax : UInt8) (calloc : Allocations)
  | enable (addr : UInt32) (enable : Int)
  | enableNo (number : UInt8) (enable : Int)
  | portmapAdd (proto : UInt8) (maddr : UInt32) (mport : UInt16) (daddr : UInt32) (dport : UInt16)
  | portmapRemove (proto : UInt8) (mport : UInt16)
  | recv (now : UInt32) (p : Datagram)
  | forward (now : UInt32) (pcbs : LocalPcbs) (draws : List Draw) (inp outp : Nat) (p : Datagram)

def enter (s : Node) : ApiCall → Except Trap Node
  | .init natMax portmapMax calloc => do
    let (_,napt) ← ipNaptInitGuarded s.napt natMax portmapMax calloc
    return {s with napt := napt}
  | .enable addr enable => .ok {s with netifs := (ipNaptEnable s.netifs addr enable).1}
  | .enableNo number enable => .ok {s with netifs := (ipNaptEnableNo s.netifs number enable).1}
  | .portmapAdd proto maddr mport daddr dport => do
    let d ← deref s.napt
    let (d,_) ← ipPortmapAddGuarded d proto maddr mport daddr dport
    return {s with napt := some d}
  | .portmapRemove proto mport => do
    let d ← deref s.napt
    let (d,_) ← ipPortmapRemoveGuarded d proto mport
    return {s with napt := some d}
  | .recv now p => do
    let (napt,_) ← ipNaptRecvGuarded s.napt now p.packet
    return {s with napt := napt}
  | .forward now pcbs draws inp outp p =>
    match s.netifs[inp]?,s.netifs[outp]? with
    | some inp,some outp => do
      let (napt,_) ← ipNaptForwardGuarded s.napt now pcbs draws inp.toNetif outp.toNetif p.packet
      return {s with napt := napt}
    | _,_ => .ok s

-- No call of the sequence makes an access it must not make. One that is still
-- looking for a port when the random numbers end is the last one.
def Safe : Node → List ApiCall → Prop
  | _,[] => True
  | s,c :: rest =>
    match enter s c with
    | .ok s' => Safe s' rest
    | .error trap => trap = .fault .draws

def Ready (s : Node) : ApiCall → Prop
  | .init natMax _ calloc =>
    s.napt.isSome ∨ (calloc.data && calloc.table && calloc.portmapTable) = false ∨ natMax ≠ 0
  | .portmapAdd .. => s.napt.isSome
  | .portmapRemove .. => s.napt.isSome
  | .forward _ _ _ inp outp p => s.napt.isSome ∨
    ∀ i o, s.netifs[inp]? = some i → s.netifs[outp]? = some o → i.napt = false ∨ ¬ Outbound p.packet
  | _ => True

def AllReady : Node → List ApiCall → Prop
  | _,[] => True
  | s,c :: rest => Ready s c ∧
    match enter s c with
    | .ok s' => AllReady s' rest
    | .error _ => True

def Settled (s : Node) : Prop := ∀ d, s.napt = some d → ∃ n a, Inside n d ∧ Represents d a

inductive Ends (ready : Prop) (ran : Except Trap Node) : Prop where
  | done (ready : ready) (ran : ran = .ok s) (settled : Settled s)
  | draws (ready : ready) (ran : ran = .error (.fault .draws))
  | trapped (early : ¬ ready) (ran : ran = .error trap) (other : trap ≠ .fault .draws)

section Calls
variable {s : Node}

theorem settled_none (none : s.napt = none) : Settled s := by
  intro d some
  rw [none] at some
  cases some

theorem settled_some (inside : Inside n d) (rep : Represents d a) (some : s.napt = some d) : Settled s := by
  intro d' same
  cases some.symm.trans same
  exact ⟨n,a,inside,rep⟩

theorem init_ends (settled : Settled s) (natMax : UInt16) (portmapMax : UInt8) (calloc : Allocations) :
    Ends (Ready s (.init natMax portmapMax calloc)) (enter s (.init natMax portmapMax calloc)) := by
  unfold enter Ready
  dsimp only
  cases there : s.napt with
  | some d =>
    exact .done (.inl rfl) rfl fun d' same => settled d' (there.trans same)
  | none =>
    by_cases all : (calloc.data && calloc.table && calloc.portmapTable) = true
    · by_cases some : natMax = 0
      · rw [some,initGuarded_none portmapMax calloc all]
        refine .trapped ?_ rfl nofun
        simp [all]
      · have positive : 1 ≤ natMax := UInt16.le_iff_toNat_le.mpr (Nat.pos_of_ne_zero fun zero => some (UInt16.toNat_inj.mp zero))
        rw [initGuarded_eq none natMax portmapMax calloc some]
        unfold ipNaptInit
        simp only [Bool.and_eq_true] at all
        simp only [all,Bool.not_true,Bool.false_eq_true,if_false,some]
        exact .done (.inr (.inr some)) rfl
          (settled_some (emptyTables_inside natMax portmapMax some) (empty_represents portmapMax positive) rfl)
    · rw [Bool.not_eq_true] at all
      rw [initGuarded_failed natMax portmapMax calloc all]
      exact .done (.inr (.inl all)) rfl (settled_none rfl)

theorem recv_ends (settled : Settled s) (now : UInt32) (p : Datagram) :
    Ends (Ready s (.recv now p)) (enter s (.recv now p)) := by
  unfold enter Ready
  dsimp only
  cases there : s.napt with
  | none => exact .done trivial rfl (settled_none rfl)
  | some d =>
    obtain ⟨n,a,inside,rep⟩ := settled d there
    obtain ⟨same,kept⟩ := recvGuarded_eq inside now p.packet
    obtain ⟨d',a',p',ran,_,rep',_⟩ := recv_refines rep now p.packet
    rw [same,ran]
    exact .done trivial rfl (settled_some (kept _ ran) rep' rfl)

theorem forward_ends (settled : Settled s) (now : UInt32) (pcbs : LocalPcbs) (draws : List Draw) (inp outp : Nat)
    (p : Datagram) :
    Ends (Ready s (.forward now pcbs draws inp outp p)) (enter s (.forward now pcbs draws inp outp p)) := by
  unfold enter Ready
  dsimp only
  cases inbound : s.netifs[inp]? with
  | none => exact .done (.inr fun _ _ none => nomatch none) rfl settled
  | some i =>
    cases outbound : s.netifs[outp]? with
    | none => exact .done (.inr fun _ _ _ none => nomatch none) rfl settled
    | some o =>
      dsimp only
      cases there : s.napt with
      | none =>
        rw [forwardGuarded_none]
        by_cases idle : i.napt = false ∨ ¬ Outbound p.packet
        · rw [if_pos idle]
          exact .done (.inr fun i' o' same _ => by cases same; exact idle) rfl (settled_none rfl)
        · rw [if_neg idle]
          refine .trapped ?_ rfl nofun
          rintro (some | idles)
          · cases some
          · exact idle (idles i o rfl rfl)
      | some d =>
        obtain ⟨n,a,inside,rep⟩ := settled d there
        obtain ⟨same,kept⟩ := forwardGuarded_eq inside now pcbs draws i.toNetif o.toNetif p.packet
        rw [same]
        cases forward_refines rep now pcbs draws i.toNetif o.toNetif p.packet with
        | inl stuck =>
          rw [stuck.1]
          exact .draws (.inl rfl) rfl
        | inr ended =>
          obtain ⟨r,a',ran,_,rep',_⟩ := ended
          rw [ran]
          exact .done (.inl rfl) rfl (settled_some (kept _ ran) rep' rfl)

theorem portmap_ends (settled : Settled s) (f : NaptData → NaptData × UInt8)
    (g : NaptData → Except Trap (NaptData × UInt8)) (same : ∀ d, g d = .ok (f d))
    (remapped : ∀ d, Remapped d (f d).1) : Ends (s.napt.isSome = true) (do
      let d ← deref s.napt
      let (d,_) ← g d
      return {s with napt := some d}) := by
  cases there : s.napt with
  | none => exact .trapped nofun rfl nofun
  | some d =>
    obtain ⟨n,a,inside,rep⟩ := settled d there
    obtain ⟨table,moved⟩ := remapped d
    unfold deref
    rw [ok_then,same,ok_then]
    refine .done rfl rfl (settled_some (n:=n) (a:=a) ?_ (rep.remapped (remapped d)) rfl)
    rw [moved]
    exact inside.setTable table

theorem enter_ends (settled : Settled s) (c : ApiCall) : Ends (Ready s c) (enter s c) := by
  cases c with
  | init natMax portmapMax calloc => exact init_ends settled natMax portmapMax calloc
  | enable addr enable => exact .done trivial rfl settled
  | enableNo number enable => exact .done trivial rfl settled
  | portmapAdd proto maddr mport daddr dport =>
    exact portmap_ends settled (ipPortmapAdd · proto maddr mport daddr dport) _
      (portmapAddGuarded_eq · proto maddr mport daddr dport) fun d => portmapAdd_remapped rfl
  | portmapRemove proto mport =>
    exact portmap_ends settled (ipPortmapRemove · proto mport) _ (portmapRemoveGuarded_eq · proto mport)
      fun d => portmapRemove_remapped rfl
  | recv now p => exact recv_ends settled now p
  | forward now pcbs draws inp outp p => exact forward_ends settled now pcbs draws inp outp p

theorem safe_ready (settled : Settled s) (calls : List ApiCall) : Safe s calls ↔ AllReady s calls := by
  induction calls generalizing s with
  | nil => exact Iff.rfl
  | cons c rest ih =>
    unfold Safe AllReady
    cases enter_ends settled c with
    | done ready ran settled' =>
      rw [ran]
      exact (ih settled').trans (and_iff_right ready).symm
    | draws ready ran =>
      rw [ran]
      exact iff_of_true rfl ⟨ready,trivial⟩
    | trapped early ran other =>
      rw [ran]
      exact iff_of_false other fun both => early both.1

end Calls

-- From boot on, no access goes astray exactly if every call finds what it needs.
theorem api_safe (netifs : List Interface) (calls : List ApiCall) :
    Safe ⟨netifs,none⟩ calls ↔ AllReady ⟨netifs,none⟩ calls :=
  safe_ready (settled_none rfl) calls

-- A mapping made too early, a packet forwarded too early, and tables without entries.
theorem called_too_early :
    ¬ Safe ⟨[],none⟩ [.portmapAdd ipProtoTcp 0x0200000a 8080 0x0204a8c0 80] ∧
    ¬ Safe ⟨[⟨⟨false,0x0104a8c0⟩,0,true⟩,⟨⟨false,0x0200000a⟩,1,true⟩],none⟩
      [.enable 0x0104a8c0 1,.forward 0 quiet [] 0 1 (.udp 0x0204a8c0 0x3905 0x08080808 0x3500)] ∧
    ¬ Safe ⟨[],none⟩ [.init 0 1 ⟨true,true,true⟩] := by
  refine ⟨?_,?_,?_⟩
  · intro safe
    cases safe
  · intro safe
    cases safe
  · intro safe
    cases safe

end NonosLinkLayer.Napt
