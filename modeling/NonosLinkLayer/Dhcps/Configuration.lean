import NonosLinkLayer.Dhcps.Grammar
import NonosLinkLayer.Dhcps.Validation

namespace NonosLinkLayer.Dhcps
open ByteMemory TagLength

def wifiSoftapSetDhcpsLeaseTime (dhcpsLeaseTime : UInt32) (opmode : UInt8) (status : DhcpStatus) (minute : UInt32) :
    UInt32 × Bool :=
  if opmode = stationMode ∨ opmode = nullMode then (dhcpsLeaseTime,false)
  else if status = .started then (dhcpsLeaseTime,false)
  else if minute = 0 then (dhcpsLeaseTime,false)
  else (minute,true)

def broadcastDhcps (ipAddr netmask : UInt32) : UInt32 := (ipAddr &&& netmask) ||| ~~~netmask

def bigEndian (data : List UInt8) : Nat := data.foldl (fun n b => 256 * n + b.toNat) 0

structure Says (settings : Settings) (minutes : UInt32) (type : UInt8) (fields : List Field) : Prop where
  type : values dhcpOptionMsgType fields = [[type]]
  netmask : values dhcpOptionSubnetMask fields = [bytes32 settings.netmask]
  leaseTime : ∃ data, values dhcpOptionLeaseTime fields = [data] ∧ data.length = 4 ∧ bigEndian data = 60 * minutes.toNat
  serverId : values dhcpOptionServerId fields = [bytes32 settings.serverAddress]
  router : values dhcpOptionRouter fields = if settings.offer &&& offerRouter ≠ 0 then [bytes32 settings.gw] else []
  dns : values dhcpOptionDnsServer fields =
    [bytes32 (if settings.dnsAddress = 0 then settings.serverAddress else settings.dnsAddress)]
  broadcast : values dhcpOptionBroadcastAddress fields = [bytes32 (broadcastDhcps settings.serverAddress settings.netmask)]

-- A reply with the cookie and such options up to an end, and nothing behind the
-- 312 bytes there are for them.
structure Configured (settings : Settings) (minutes : UInt32) (type : UInt8) (m reply : Memory) : Prop where
  cookie : read32 reply optionsAt = magicCookie
  options : ∃ fields behind, Spells reply (optionsAt + 4) (area fields (some behind)) ∧
    4 + (area fields (some behind)).length = 312 ∧ decode 312 (area fields (some behind)) = some fields ∧
    Says settings minutes type fields
  inside : ∀ pos ≥ dhcpsMsgSize, reply pos = m pos

def wordOption (code : UInt8) (v : UInt32) (plain : code ≠ TagLength.pad ∧ code ≠ TagLength.last) : Field :=
  .option code (bytes32 v) plain word_short

def replyFields (settings : Settings) (dhcpsLeaseTime : UInt32) (type : UInt8) : List Field :=
  [typeOption type,wordOption dhcpOptionSubnetMask settings.netmask (by decide),
    .option dhcpOptionLeaseTime (bytes32 (dhcpsLeaseTime * 60)).reverse (by decide) word_short,
    wordOption dhcpOptionServerId settings.serverAddress (by decide)] ++
  (if settings.offer &&& offerRouter ≠ 0 then [wordOption dhcpOptionRouter settings.gw (by decide)] else []) ++
  [wordOption dhcpOptionDnsServer (if settings.dnsAddress = 0 then settings.serverAddress else settings.dnsAddress) (by decide),
    .option dhcpOptionBroadcastAddress ((bytes32 settings.serverAddress).take 3 ++ [255]) (by decide) (by simp [bytes32]),
    .option dhcpOptionInterfaceMtu [0x02,0x40] (by decide) (show 2 < 256 by decide),
    .option dhcpOptionPerformRouterDiscovery [0x00] (by decide) byte_short]

section Configuration
variable {settings : Settings} {d : Daemon} {m : Memory} {type : UInt8} {minutes time : UInt32}

theorem low_bits (i : Nat) (small : i < 32) : (0x00ffffff#32).getLsbD i = decide (i < 24) := by
  have all : ∀ i < 32, (0x00ffffff#32).getLsbD i = decide (i < 24) := by decide
  exact all i small

theorem high_bits (i : Nat) (small : i < 32) : (0xff000000#32).getLsbD i = decide (24 ≤ i) := by
  have all : ∀ i < 32, (0xff000000#32).getLsbD i = decide (24 ≤ i) := by decide
  exact all i small

theorem broadcast_octets (ip netmask : UInt32) :
    (ip &&& netmask) ||| ~~~netmask = (ip &&& 0x00ffffff) ||| 0xff000000 ↔
      ~~~(ip ||| netmask) &&& 0x00ffffff = 0 ∧ netmask &&& ~~~ip &&& 0xff000000 = 0 := by
  simp only [←UInt32.toBitVec_inj,UInt32.toBitVec_or,UInt32.toBitVec_and,UInt32.toBitVec_not,UInt32.toBitVec_ofNat]
  generalize ip.toBitVec = a
  generalize netmask.toBitVec = b
  simp only [BitVec.eq_of_getLsbD_eq_iff,BitVec.getLsbD_or,BitVec.getLsbD_and,BitVec.getLsbD_not]
  rw [←forall₂_and]
  refine forall₂_congr fun i small => ?_
  rw [low_bits i small,high_bits i small,BitVec.getLsbD_ofNat]
  by_cases low : i < 24
  · have apart : ¬24 ≤ i := by omega
    cases a.getLsbD i <;> cases b.getLsbD i <;> simp [small,low,apart]
  · have high : 24 ≤ i := by omega
    cases a.getLsbD i <;> cases b.getLsbD i <;> simp [small,low,high]

theorem option_broadcast (ip : UInt32) : (bytes32 ip).take 3 ++ [255] = bytes32 ((ip &&& 0x00ffffff) ||| 0xff000000) := by
  have low : (ip &&& 0x00ffffff).toNat = ip.toNat % 16777216 := by
    rw [UInt32.toNat_and]
    exact Nat.and_two_pow_sub_one_eq_mod ip.toNat 24
  have sum : ((ip &&& 0x00ffffff) ||| 0xff000000).toNat = 4278190080 + ip.toNat % 16777216 := by
    rw [UInt32.toNat_or,low,Nat.or_comm]
    exact (Nat.two_pow_add_eq_or_of_lt (i:=24) (Nat.mod_lt _ (by decide)) 255).symm
  unfold bytes32
  rw [sum]
  have small := ip.toNat_lt
  simp only [List.take_succ_cons,List.take_zero,List.cons_append,List.nil_append]
  refine congrArg₂ _ ?_ (congrArg₂ _ ?_ (congrArg₂ _ ?_ (congrArg₂ _ ?_ rfl))) <;>
    apply UInt8.toNat_inj.mp <;> simp <;> omega

theorem bigEndian_bytes32 (v : UInt32) : bigEndian (bytes32 v).reverse = v.toNat := by
  have small := v.toNat_lt
  simp [bigEndian,bytes32]
  omega

theorem reply_area (settings : Settings) (time : UInt32) (type : UInt8) :
    area (replyFields settings time type) (some []) =
      [dhcpOptionMsgType,1,type] ++ addOfferOptions settings time ++ [dhcpOptionEnd] := by
  unfold replyFields addOfferOptions
  by_cases router : settings.offer &&& offerRouter ≠ 0
  · rw [if_pos router,if_pos router]
    rfl
  · rw [if_neg router,if_neg router]
    rfl

theorem reply_values (settings : Settings) (time : UInt32) (type : UInt8) :
    values dhcpOptionMsgType (replyFields settings time type) = [[type]] ∧
    values dhcpOptionSubnetMask (replyFields settings time type) = [bytes32 settings.netmask] ∧
    values dhcpOptionLeaseTime (replyFields settings time type) = [(bytes32 (time * 60)).reverse] ∧
    values dhcpOptionServerId (replyFields settings time type) = [bytes32 settings.serverAddress] ∧
    values dhcpOptionRouter (replyFields settings time type) =
      (if settings.offer &&& offerRouter ≠ 0 then [bytes32 settings.gw] else []) ∧
    values dhcpOptionDnsServer (replyFields settings time type) =
      [bytes32 (if settings.dnsAddress = 0 then settings.serverAddress else settings.dnsAddress)] ∧
    values dhcpOptionBroadcastAddress (replyFields settings time type) =
      [(bytes32 settings.serverAddress).take 3 ++ [255]] := by
  unfold replyFields
  by_cases router : settings.offer &&& offerRouter ≠ 0
  · rw [if_pos router,if_pos router]
    exact ⟨rfl,rfl,rfl,rfl,rfl,rfl,rfl⟩
  · rw [if_neg router,if_neg router]
    exact ⟨rfl,rfl,rfl,rfl,rfl,rfl,rfl⟩

theorem reply_tells (settings : Settings) (minutes : UInt32) (type : UInt8) :
    Says settings minutes type (replyFields settings minutes type) ↔
      (~~~(settings.serverAddress ||| settings.netmask) &&& 0x00ffffff = 0 ∧
        settings.netmask &&& ~~~settings.serverAddress &&& 0xff000000 = 0) ∧ 60 * minutes.toNat < 4294967296 := by
  obtain ⟨types,netmask,leased,server,router,dns,broadcast⟩ := reply_values settings minutes type
  have seconds : (minutes * 60).toNat = minutes.toNat * 60 % 4294967296 := UInt32.toNat_mul ..
  rw [←broadcast_octets]
  constructor
  · intro told
    constructor
    · have both := broadcast.symm.trans told.broadcast
      rw [option_broadcast] at both
      exact (bytes32_inj (List.singleton_inj.mp both)).symm
    · obtain ⟨data,here,length,exactly⟩ := told.leaseTime
      rw [leased] at here
      rw [←List.singleton_inj.mp here,bigEndian_bytes32,seconds] at exactly
      omega
  · rintro ⟨octets,small⟩
    refine ⟨types,netmask,⟨_,leased,rfl,?_⟩,server,router,dns,?_⟩
    · rw [bigEndian_bytes32,seconds]
      omega
    · rw [broadcast,option_broadcast,broadcastDhcps,octets]

theorem reply_length (settings : Settings) (time : UInt32) (type : UInt8) :
    (area (replyFields settings time type) (some [])).length ≤ 54 := by
  unfold replyFields
  by_cases router : settings.offer &&& offerRouter ≠ 0
  · rw [if_pos router]
    simp [area,Field.bytes,bytes32,wordOption,typeOption]
  · rw [if_neg router]
    simp [area,Field.bytes,bytes32,wordOption,typeOption]

theorem createMsg_apart (client : UInt32) (m : Memory) {pos : Nat} (far : 548 ≤ pos) : createMsg client m pos = m pos := by
  unfold createMsg optionsAt
  iterate 11 rw [write_apart (.inr (by simp only [bytes16,bytes32,List.length_replicate,List.length_cons,List.length_nil]; omega))]

theorem createMsg_cookie (client : UInt32) (m : Memory) : read32 (createMsg client m) optionsAt = magicCookie :=
  read32_write32 ..

theorem sent_configured (d : Daemon) (m : Memory) (settings : Settings) (time : UInt32) (type : UInt8) :
    Configured settings time type m (sendMsg d m type (addOfferOptions settings time)) ↔
      Says settings time type (replyFields settings time type) := by
  have short := reply_length settings time type
  have written : Spells (sendMsg d m type (addOfferOptions settings time)) (optionsAt + 4)
      (area (replyFields settings time type) (some [])) := by
    rw [reply_area]
    exact write_spells ..
  obtain ⟨behind,length,further⟩ := exists_spells (sendMsg d m type (addOfferOptions settings time))
    (optionsAt + 4 + (area (replyFields settings time type) (some [])).length)
    (308 - (area (replyFields settings time type) (some [])).length)
  have whole : Spells (sendMsg d m type (addOfferOptions settings time)) (optionsAt + 4)
      (area (replyFields settings time type) (some behind)) := by
    rw [area_behind]
    exact spells_append.mpr ⟨written,further⟩
  have size : 4 + (area (replyFields settings time type) (some behind)).length = 312 := by
    rw [area_behind,List.length_append]
    omega
  constructor
  · intro configured
    obtain ⟨fields,behind',spells,size',_,told⟩ := configured.options
    have same := spells_unique spells whole (by omega)
    rwa [←area_inj same]
  · intro told
    refine ⟨?_,⟨_,behind,whole,size,decode_area ?_,told⟩,fun pos far => ?_⟩
    · unfold sendMsg
      rw [read32_write_apart (.inl (Nat.le_refl _)),createMsg_cookie]
    · have few := area_length (replyFields settings time type) (some behind)
      omega
    · unfold sendMsg
      have bytes := reply_area settings time type
      rw [←bytes,write_apart (.inr (by unfold dhcpsMsgSize at far; unfold optionsAt; omega))]
      exact createMsg_apart _ _ far

theorem leaseTime_accepted {prior minute time : UInt32} {opmode : UInt8} {status : DhcpStatus}
    (accepted : wifiSoftapSetDhcpsLeaseTime prior opmode status minute = (time,true)) : minute = time := by
  unfold wifiSoftapSetDhcpsLeaseTime at accepted
  split at accepted
  · cases accepted
  split at accepted
  · cases accepted
  split at accepted
  · cases accepted
  · cases accepted
    rfl

-- An offer and an acknowledgement say what is configured exactly if the netmask
-- gives the broadcast address that is told, and the lease time fits in 32 bits of seconds.
theorem replies_configured (settings : Settings) (d : Daemon) (m : Memory) (prior minute : UInt32) (opmode : UInt8)
    (status : DhcpStatus)
    (accepted : wifiSoftapSetDhcpsLeaseTime prior opmode status minute = (d.server.dhcpsLeaseTime,true)) :
    Configured settings minute dhcpOffer m (sendOffer settings d m) ∧
      Configured settings minute dhcpAck m (sendAck settings d m) ↔
    (~~~(settings.serverAddress ||| settings.netmask) &&& 0x00ffffff = 0 ∧
      settings.netmask &&& ~~~settings.serverAddress &&& 0xff000000 = 0) ∧ 60 * minute.toNat < 4294967296 := by
  rw [leaseTime_accepted accepted]
  unfold sendOffer sendAck
  rw [sent_configured,sent_configured,reply_tells,reply_tells,and_self]

-- 192.168.4.1/24 and two hours.
theorem usual_configured :
    Configured accessPointSettings 120 dhcpOffer (fun _ => 0) (sendOffer accessPointSettings ⟨accessPoint,0⟩ fun _ => 0) ∧
      Configured accessPointSettings 120 dhcpAck (fun _ => 0) (sendAck accessPointSettings ⟨accessPoint,0⟩ fun _ => 0) :=
  (replies_configured accessPointSettings ⟨accessPoint,0⟩ _ 120 120 2 .stopped (by decide)).mpr (by decide)

-- With 192.168.4.1/16 the address for sending is 192.168.255.255, and the one that
-- is told is 192.168.4.255.
theorem wide_told_otherwise : ¬∀ settings (d : Daemon) m prior minute opmode status,
    wifiSoftapSetDhcpsLeaseTime prior opmode status minute = (d.server.dhcpsLeaseTime,true) →
    Configured settings minute dhcpOffer m (sendOffer settings d m) ∧
      Configured settings minute dhcpAck m (sendAck settings d m) := by
  intro always
  have both := always {accessPointSettings with netmask := 0x0000ffff} ⟨accessPoint,0⟩ (fun _ => 0) 120 120 2 .stopped
    (by decide)
  have told := (reply_tells _ _ _).mp ((sent_configured _ _ _ _ _).mp both.1)
  exact absurd told (by decide)

end Configuration

end NonosLinkLayer.Dhcps
