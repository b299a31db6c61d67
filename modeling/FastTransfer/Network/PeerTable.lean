/- FastTransfer/Network/PeerTable
   source: src/network/DiscoveryService.cpp
   digest: The table of devices over whole runs: its keys, its signals and what a sweep leaves. -/

import FastTransfer.Library.Lease
import FastTransfer.Network.DiscoveryService
import FastTransfer.Qt.CompactJson
import Mathlib.Data.List.Induction
import Mathlib.Data.List.Pairwise
import Mathlib.Order.Basic

set_option autoImplicit false
set_option relaxedAutoImplicit false

namespace FastTransfer

open QString (literal colon number Unmarked)

inductive DiscoveryEvent (Host : Type)
  | readyRead (pending : List (Datagram Host))
  | cleanup (now : Int)
  | setDeviceName (name : QString)
  | setTcpPort (port : UInt16)

def DiscoveryEvent.clock {Host : Type} : DiscoveryEvent Host → List Int
  | .readyRead pending => pending.map Datagram.currentDateTime
  | .cleanup now => [now]
  | _ => []

/-- A datagram as it comes in, at a service of a name and a port. -/
structure Reception (Host : Type) where
  deviceName : QString
  tcpPort : UInt16
  datagram : Datagram Host

/-- The datagrams of a run, under the names and ports that the service has in turn. -/
def receptions {Host : Type} (deviceName : QString) (tcpPort : UInt16) :
    List (DiscoveryEvent Host) → List (Reception Host)
  | [] => []
  | .readyRead pending :: events =>
      pending.map (⟨deviceName, tcpPort, ·⟩) ++ receptions deviceName tcpPort events
  | .cleanup _ :: events => receptions deviceName tcpPort events
  | .setDeviceName name :: events =>
      receptions (if name = [] then deviceName else name) tcpPort events
  | .setTcpPort port :: events => receptions deviceName port events

/-- What a datagram is to say of a device: it holds a JSON object of the application with these
fields, and is not from the service itself. -/
structure Describes {Host : Type} (J : QJson) (net : QNetwork Host) (r : Reception Host)
    (device : DiscoveredDevice Host) : Prop where
  fields : ∃ obj, J.fromJson r.datagram.data = some obj ∧
    (obj.value (literal "app")).toString = literal "FastTransfer" ∧
    (obj.value (literal "device_name")).toString = device.deviceName ∧
    (J.toInt (obj.value (literal "tcp_port")) DEFAULT_TCP_PORT.toUInt32).toUInt16 =
      device.tcpPort ∧
    (obj.value (literal "os")).toString = device.osType ∧
    (obj.value (literal "interface")).toStringOr (literal "Ethernet") = device.interfaceType ∧
    J.toULongLong (obj.value (literal "link_speed_mbps")) = device.linkSpeedMbps ∧
    (obj.value (literal "mode")).toStringOr (literal "READY") = device.mode
  foreign : device.deviceName ≠ r.deviceName ∨ device.tcpPort ≠ r.tcpPort ∨
    ∀ adapter ∈ r.datagram.adapters, device.ip ∉ adapter.ipv4Addresses
  ip : (∃ ipv4Val, net.toIPv4Address r.datagram.senderAddress = some ipv4Val ∧
      device.ip = net.ofIPv4Address ipv4Val) ∨
    net.toIPv4Address r.datagram.senderAddress = none ∧ device.ip = r.datagram.senderAddress
  lastSeen : device.lastSeen = r.datagram.currentDateTime

structure Announces {Host : Type} (J : QJson) (net : QNetwork Host) (r : Reception Host)
    (device : DiscoveredDevice Host) : Prop extends Describes J net r device where
  id : device.id = net.toString device.ip ++ colon :: number device.tcpPort.toNat

def DiscoverySignal.notice {Host : Type} : DiscoverySignal Host → Option (Lease.Notice QString)
  | .deviceDiscovered device => some (.found device.id)
  | .deviceLost deviceId => some (.lost deviceId)
  | _ => none

/-- A service with all it has emitted, and the devices of all datagrams it has accepted. -/
structure DiscoveryTrace (Host : Type) where
  service : DiscoveryService Host
  signals : List (DiscoverySignal Host) := []
  heard : List (DiscoveredDevice Host) := []

namespace DiscoveryTrace

variable {Host : Type} [DecidableEq Host] (J : QJson) (net : QNetwork Host)

def next (t : DiscoveryTrace Host) : DiscoveryEvent Host → DiscoveryTrace Host
  | .readyRead pending =>
      let (service, signals) := t.service.onReadyRead J net pending
      { service := service
        signals := t.signals ++ signals
        heard := t.heard ++ pending.filterMap (t.service.announced J net) }
  | .cleanup now =>
      let (service, signals) := t.service.cleanupStaleDevices now
      { t with service := service, signals := t.signals ++ signals }
  | .setDeviceName name => { t with service := t.service.setDeviceName name }
  | .setTcpPort port => { t with service := t.service.setTcpPort port }

def follow (start : DiscoveryService Host) (events : List (DiscoveryEvent Host)) :
    DiscoveryTrace Host :=
  events.foldl (next J net) { service := start }

end DiscoveryTrace

namespace DiscoveryService

variable {Host : Type} {self : DiscoveryService Host}

def table (self : DiscoveryService Host) : Lease.Table QString (DiscoveredDevice Host) :=
  fun id => self.devices[id]?

def notices (signals : List (DiscoverySignal Host)) : List (Lease.Notice QString) :=
  signals.filterMap DiscoverySignal.notice

theorem keys_table (self : DiscoveryService Host) :
    Lease.keys self.table = {id | id ∈ self.devices} := by
  ext id
  simp [Lease.keys, table]

theorem table_enter (self : DiscoveryService Host) (dev : DiscoveredDevice Host) :
    (self.enter dev).1.table = Lease.put DiscoveredDevice.id self.table dev := by
  ext id
  simp [enter, table, Lease.put, Std.TreeMap.getElem?_insert]

theorem replays_enter (self : DiscoveryService Host) (dev : DiscoveredDevice Host) :
    Lease.Replays (Lease.keys self.table) (notices (self.enter dev).2)
      (Lease.keys (self.enter dev).1.table) := by
  rw [table_enter]
  cases known : self.devices.contains dev.id with
  | true =>
      have filled : self.table dev.id ≠ none := by
        rw [Option.ne_none_iff_isSome, table, ← Std.TreeMap.contains_eq_isSome_getElem?]
        exact known
      rw [Lease.keys_put_known filled]
      simp only [enter, known, notices, DiscoverySignal.notice]
      exact .nil
  | false =>
      have free : self.table dev.id = none := by
        rw [table, ← Option.not_isSome_iff_eq_none, ← Std.TreeMap.contains_eq_isSome_getElem?,
          known]
        simp
      simp only [enter, known, notices, DiscoverySignal.notice]
      exact Lease.replays_put_new free

theorem mem_staleIds {limit : Int} {id : QString} :
    id ∈ self.staleIds limit ↔
      ∃ dev, self.table id = some dev ∧ dev.lastSeen < limit := by
  simp [staleIds, table, Std.TreeMap.mem_toList_iff_getElem?_eq_some]

theorem staleIds_nodup (self : DiscoveryService Host) (limit : Int) :
    (self.staleIds limit).Nodup := by
  have distinct : (self.devices.toList.map Prod.fst).Nodup := by
    rw [Std.TreeMap.map_fst_toList_eq_keys]
    exact Std.TreeMap.nodup_keys
  exact (List.filter_sublist.map Prod.fst).nodup distinct

private theorem getElem?_erase_all {ids : List QString}
    {devices : Std.TreeMap QString (DiscoveredDevice Host)} (id : QString) :
    (ids.foldl (fun devices id => devices.erase id) devices)[id]? =
      if id ∈ ids then none else devices[id]? := by
  induction ids generalizing devices with
  | nil => simp
  | cons first ids ih =>
      rw [List.foldl_cons, ih, Std.TreeMap.getElem?_erase]
      by_cases later : id ∈ ids
      · simp [later]
      · by_cases own : first = id
        · simp [own]
        · simp [later, own, Ne.symm own]

theorem table_cleanup (self : DiscoveryService Host) (now : Int) :
    (self.cleanupStaleDevices now).1.table =
      Lease.expire DiscoveredDevice.lastSeen self.table (cutoff now) := by
  ext id
  have stale : id ∈ self.staleIds (cutoff now) ↔
      ∃ dev, self.table id = some dev ∧ dev.lastSeen < cutoff now := mem_staleIds
  have erased : (self.cleanupStaleDevices now).1.table id =
      if id ∈ self.staleIds (cutoff now) then none else self.table id := by
    unfold cleanupStaleDevices
    dsimp only
    split
    · rename_i none
      simp [none]
    · exact getElem?_erase_all id
  rw [erased, Lease.expire]
  cases entry : self.table id with
  | none => simp
  | some dev =>
      rw [entry] at stale
      simp only [Option.some.injEq, exists_eq_left'] at stale
      simp [stale, Option.filter]

theorem replays_cleanup (self : DiscoveryService Host) (now : Int) :
    Lease.Replays (Lease.keys self.table) (notices (self.cleanupStaleDevices now).2)
      (Lease.keys (self.cleanupStaleDevices now).1.table) := by
  have told : notices (self.cleanupStaleDevices now).2 =
      (self.staleIds (cutoff now)).map .lost := by
    unfold cleanupStaleDevices
    dsimp only
    split
    · rename_i none
      simp [none, notices]
    · simp [notices, List.filterMap_map, Function.comp_def, DiscoverySignal.notice]
  rw [table_cleanup, told]
  exact Lease.replays_expire (staleIds_nodup self _) fun id => mem_staleIds

theorem table_setDeviceName (self : DiscoveryService Host) (name : QString) :
    (self.setDeviceName name).table = self.table := by
  unfold setDeviceName
  split <;> rfl

theorem table_empty (empty : self.devices = ∅) : self.table = fun _ => none := by
  ext id
  simp [table, empty]

variable [DecidableEq Host] {J : QJson} {net : QNetwork Host}

/-- The loop takes a datagram exactly for what it says of a device. -/
theorem announced_iff {datagram : Datagram Host} {dev : DiscoveredDevice Host} :
    self.announced J net datagram = some dev ↔
      Describes J net ⟨self.deviceName, self.tcpPort, datagram⟩ dev ∧
        dev.id = deviceId net dev.ip dev.tcpPort := by
  have address : ∀ ip : Host, ((∃ ipv4Val, net.toIPv4Address datagram.senderAddress = some ipv4Val ∧
        ip = net.ofIPv4Address ipv4Val) ∨
      net.toIPv4Address datagram.senderAddress = none ∧ ip = datagram.senderAddress) ↔
        ip = senderIp net datagram.senderAddress := by
    intro ip
    unfold senderIp
    cases net.toIPv4Address datagram.senderAddress <;> simp
  have own : ∀ ip : Host, isOwnIp datagram.adapters ip = true ↔
      ¬ ∀ adapter ∈ datagram.adapters, ip ∉ adapter.ipv4Addresses := by
    intro ip
    simp [isOwnIp]
  constructor
  · intro h
    unfold announced at h
    dsimp only at h
    split at h
    · cases h
    rename_i obj read
    split at h
    · cases h
    rename_i app
    split at h
    · cases h
    rename_i foreign
    cases h
    refine ⟨⟨⟨obj, read, not_not.mp app, rfl, rfl, rfl, rfl, rfl, rfl⟩, ?_,
      (address _).mpr rfl, rfl⟩, rfl⟩
    rw [own] at foreign
    simpa only [not_and_or, not_not] using foreign
  · rintro ⟨⟨⟨obj, read, app, name, port, os, kind, speed, mode⟩, foreign, ip, seen⟩, id⟩
    have ip' := (address _).mp ip
    unfold announced
    dsimp only
    rw [read]
    dsimp only
    rw [if_neg (not_not.mpr app), name, port, os, kind, speed, mode, if_neg]
    · rw [← ip', ← id, ← seen]
    · rintro ⟨sameName, samePort, self⟩
      rw [← ip', own] at self
      rcases foreign with other | other | none
      · exact other sameName
      · exact other samePort
      · exact self none

/-- The device of a datagram; none where it is skipped. -/
def heardOf (J : QJson) (net : QNetwork Host) (r : Reception Host) :
    Option (DiscoveredDevice Host) :=
  ({ deviceName := r.deviceName, tcpPort := r.tcpPort } : DiscoveryService Host).announced J net
    r.datagram

theorem heardOf_iff {r : Reception Host} (unmarked : ∀ device, Describes J net r device →
      Unmarked (net.toString device.ip)) (dev : DiscoveredDevice Host) :
    heardOf J net r = some dev ↔ Announces J net r dev := by
  rw [heardOf, announced_iff]
  constructor
  · rintro ⟨describes, id⟩
    refine ⟨describes, ?_⟩
    rw [id, deviceId, QString.arg_first, QString.arg_second (unmarked dev describes)]
  · intro announces
    refine ⟨announces.toDescribes, ?_⟩
    rw [announces.id, deviceId, QString.arg_first,
      QString.arg_second (unmarked dev announces.toDescribes)]

end DiscoveryService

namespace DiscoveryTrace

open DiscoveryService

variable {Host : Type} [DecidableEq Host] {J : QJson} {net : QNetwork Host}
variable {t : DiscoveryTrace Host} {limit later : Int}

/-- The table tracks what was heard, up to a limit, and the signals so far tell its keys. -/
structure Kept (limit : Int) (t : DiscoveryTrace Host) : Prop where
  tracks : Lease.Tracks DiscoveredDevice.id DiscoveredDevice.lastSeen t.heard limit t.service.table
  replays : Lease.Replays ∅ (notices t.signals) (Lease.keys t.service.table)

omit [DecidableEq Host] in
theorem Kept.mono (h : Kept limit t) (le : limit ≤ later) : Kept later t where
  tracks := h.tracks.mono le
  replays := h.replays

omit [DecidableEq Host] in
theorem Kept.enter (h : Kept limit t) (dev : DiscoveredDevice Host) :
    Kept limit
      { service := (t.service.enter dev).1
        signals := t.signals ++ (t.service.enter dev).2
        heard := t.heard ++ [dev] } where
  tracks := by
    rw [table_enter]
    exact h.tracks.put dev
  replays := by
    rw [notices, List.filterMap_append]
    exact h.replays.append (replays_enter t.service dev)

/-- The loop enters the devices that are announced, one after the other. -/
theorem Kept.onReadyRead (h : Kept limit t) (pending : List (Datagram Host)) :
    Kept limit
      { service := (t.service.onReadyRead J net pending).1
        signals := t.signals ++ (t.service.onReadyRead J net pending).2
        heard := t.heard ++ pending.filterMap (t.service.announced J net) } := by
  induction pending generalizing t with
  | nil => simpa [DiscoveryService.onReadyRead] using h
  | cons datagram pending ih =>
      rw [DiscoveryService.onReadyRead]
      cases announced : t.service.announced J net datagram with
      | none => simpa [announced] using ih h
      | some dev =>
          have rest := ih (h.enter dev)
          have same : (t.service.enter dev).1.announced J net = t.service.announced J net := rfl
          simpa [announced, same] using rest

omit [DecidableEq Host] in
theorem kept_start {start : DiscoveryService Host} (empty : start.devices = ∅) :
    Kept limit { service := start } where
  tracks := by
    rw [table_empty empty]
    exact .nil
  replays := by
    have keys : Lease.keys start.table = ∅ := by
      rw [table_empty empty]
      simp [Lease.keys]
    rw [keys]
    exact .nil

theorem Kept.setDeviceName (h : Kept limit t) (name : QString) :
    Kept limit (t.next J net (.setDeviceName name)) where
  tracks := by
    show Lease.Tracks _ _ _ _ (t.service.setDeviceName name).table
    rw [table_setDeviceName]
    exact h.tracks
  replays := by
    show Lease.Replays _ _ (Lease.keys (t.service.setDeviceName name).table)
    rw [table_setDeviceName]
    exact h.replays

theorem Kept.cleanup {now : Int} (h : Kept (cutoff now) t) :
    Kept (cutoff now) (t.next J net (.cleanup now)) where
  tracks := by
    show Lease.Tracks _ _ _ _ (t.service.cleanupStaleDevices now).1.table
    rw [table_cleanup]
    exact h.tracks.expire
  replays := by
    show Lease.Replays _ (notices (t.signals ++ _)) _
    rw [notices, List.filterMap_append]
    exact h.replays.append (replays_cleanup t.service now)

theorem cutoff_mono {now : Int} (le : now ≤ later) : cutoff now ≤ cutoff later := by
  unfold cutoff
  omega

theorem follow_snoc (start : DiscoveryService Host) (events : List (DiscoveryEvent Host))
    (e : DiscoveryEvent Host) :
    follow J net start (events ++ [e]) = (follow J net start events).next J net e := by
  simp [follow]

/-- Along a run whose clock does not go back the table tracks what was heard, with the limit of a
sweep at any later time. -/
theorem kept_follow {start : DiscoveryService Host} (empty : start.devices = ∅)
    {events : List (DiscoveryEvent Host)} {now : Int}
    (clock : (events.flatMap DiscoveryEvent.clock).Pairwise (· ≤ ·))
    (bound : ∀ time ∈ events.flatMap DiscoveryEvent.clock, time ≤ now) :
    Kept (cutoff now) (follow J net start events) := by
  induction events using List.reverseRecOn generalizing now with
  | nil => exact kept_start empty
  | append_singleton events e ih =>
      rw [List.flatMap_append, List.flatMap_singleton] at clock bound
      obtain ⟨before, -, order⟩ := List.pairwise_append.mp clock
      have earlier : ∀ time ∈ events.flatMap DiscoveryEvent.clock, time ≤ now := by
        intro time mem
        exact bound time (List.mem_append_left _ mem)
      rw [follow_snoc]
      cases e with
      | readyRead pending => exact (ih before earlier).onReadyRead pending
      | cleanup time =>
          have last : time ∈ (DiscoveryEvent.cleanup time : DiscoveryEvent Host).clock := by
            simp [DiscoveryEvent.clock]
          have upTo := ih before fun first mem => order first mem time last
          apply upTo.cleanup.mono
          exact cutoff_mono (bound time (List.mem_append_right _ last))
      | setDeviceName name => exact (ih before earlier).setDeviceName name
      | setTcpPort port => exact ⟨(ih before earlier).tracks, (ih before earlier).replays⟩

private theorem onReadyRead_keeps (self : DiscoveryService Host)
    (pending : List (Datagram Host)) :
    (self.onReadyRead J net pending).1.deviceName = self.deviceName ∧
      (self.onReadyRead J net pending).1.tcpPort = self.tcpPort := by
  induction pending generalizing self with
  | nil => exact ⟨rfl, rfl⟩
  | cons datagram pending ih =>
      rw [onReadyRead]
      split
      · exact ih self
      · exact ih _

private theorem heard_foldl (t : DiscoveryTrace Host) (events : List (DiscoveryEvent Host)) :
    (events.foldl (next J net) t).heard = t.heard ++
      (receptions t.service.deviceName t.service.tcpPort events).filterMap (heardOf J net) := by
  induction events generalizing t with
  | nil => exact (List.append_nil _).symm
  | cons e events ih =>
      rw [List.foldl_cons, ih]
      cases e with
      | readyRead pending =>
          obtain ⟨name, port⟩ := @onReadyRead_keeps Host _ J net t.service pending
          rw [receptions, List.filterMap_append, List.filterMap_map, ← List.append_assoc]
          simp only [next, name, port]
          rfl
      | cleanup now =>
          have name : (t.service.cleanupStaleDevices now).1.deviceName = t.service.deviceName := by
            unfold cleanupStaleDevices
            dsimp only
            split <;> rfl
          have port : (t.service.cleanupStaleDevices now).1.tcpPort = t.service.tcpPort := by
            unfold cleanupStaleDevices
            dsimp only
            split <;> rfl
          simp only [receptions, next, name, port]
      | setDeviceName name =>
          have named : (t.service.setDeviceName name).deviceName =
              if name = [] then t.service.deviceName else name := by
            unfold setDeviceName
            by_cases empty : name = [] <;> by_cases same : t.service.deviceName = name <;>
              simp [empty, same]
          have port : (t.service.setDeviceName name).tcpPort = t.service.tcpPort := by
            unfold setDeviceName
            split <;> rfl
          simp only [receptions, next, named, port]
      | setTcpPort port => rfl

theorem heard_follow (start : DiscoveryService Host) (events : List (DiscoveryEvent Host)) :
    (follow J net start events).heard =
      (receptions start.deviceName start.tcpPort events).filterMap (heardOf J net) :=
  heard_foldl { service := start } events

/-- The table is keyed by address and port, the signals tell its keys, and after a sweep it has
the devices that were last heard within ten seconds. -/
structure Consistent (J : QJson) (net : QNetwork Host) (start : DiscoveryService Host)
    (events : List (DiscoveryEvent Host)) : Prop where
  keyed : ∀ id device, (follow J net start events).service.devices[id]? = some device →
    id = net.toString device.ip ++ colon :: number device.tcpPort.toNat
  replayed : Lease.Replays ∅ (notices (follow J net start events).signals)
    {id | id ∈ (follow J net start events).service.devices}
  fresh : ∀ front now, events = front ++ [.cleanup now] →
    ∀ id device, (follow J net start events).service.devices[id]? = some device ↔
      Lease.LastReport (Announces J net) DiscoveredDevice.id
          (receptions start.deviceName start.tcpPort events) id device ∧
        now - 10 * 1000 ≤ device.lastSeen

section Runs

variable {start : DiscoveryService Host} (empty : start.devices = ∅)
  {events : List (DiscoveryEvent Host)}
  (clock : (events.flatMap DiscoveryEvent.clock).Pairwise (· ≤ ·))

include empty clock

private theorem kept_some (J : QJson) (net : QNetwork Host) :
    ∃ limit, Kept limit (follow J net start events) := by
  by_cases none : events.flatMap DiscoveryEvent.clock = []
  · have never : ∀ time ∈ events.flatMap DiscoveryEvent.clock, time ≤ 0 := by simp [none]
    exact ⟨_, kept_follow empty clock never⟩
  · have last : ∀ time ∈ events.flatMap DiscoveryEvent.clock,
        time ≤ (events.flatMap DiscoveryEvent.clock).getLast none :=
      fun time mem => clock.rel_getLast mem
    exact ⟨_, kept_follow empty clock last⟩

theorem replays_follow :
    Lease.Replays ∅ (notices (follow J net start events).signals)
      {id | id ∈ (follow J net start events).service.devices} := by
  obtain ⟨limit, kept⟩ := kept_some empty clock J net
  rw [← keys_table]
  exact kept.replays

/-- Every device in the table was heard, and is stored under its identifier. -/
theorem heard_of_stored {id : QString} {device : DiscoveredDevice Host}
    (stored : (follow J net start events).service.devices[id]? = some device) :
    device ∈ (follow J net start events).heard ∧ device.id = id := by
  obtain ⟨limit, kept⟩ := kept_some empty clock J net
  rcases kept.tracks id with same | ⟨none, -⟩
  · rw [table, stored] at same
    exact Lease.mem_of_latest same.symm
  · rw [table, stored] at none
    cases none

theorem fresh_follow {front : List (DiscoveryEvent Host)} {now : Int}
    (swept : events = front ++ [.cleanup now]) (id : QString) (device : DiscoveredDevice Host) :
    (follow J net start events).service.devices[id]? = some device ↔
      Lease.latest DiscoveredDevice.id (follow J net start events).heard id = some device ∧
        now - 10 * 1000 ≤ device.lastSeen := by
  subst swept
  rw [List.flatMap_append, List.flatMap_singleton] at clock
  obtain ⟨before, -, order⟩ := List.pairwise_append.mp clock
  have kept : Kept (cutoff now) (follow J net start front) := by
    apply kept_follow empty before
    intro time mem
    exact order time mem now (by simp [DiscoveryEvent.clock])
  have left := kept.tracks.expire_iff (k := id) (v := device)
  rw [← table_cleanup] at left
  rw [follow_snoc]
  exact left

/-- Unless a datagram that describes a device comes from an address with a low place marker, the
table is consistent throughout the run. -/
theorem consistent_of_unmarked
    (unmarked : ∀ r ∈ receptions start.deviceName start.tcpPort events,
      ∀ device, Describes J net r device → Unmarked (net.toString device.ip)) :
    Consistent J net start events := by
  have announces : ∀ r ∈ receptions start.deviceName start.tcpPort events,
      ∀ dev, heardOf J net r = some dev ↔ Announces J net r dev :=
    fun r mem dev => heardOf_iff (unmarked r mem) dev
  refine ⟨fun id device stored => ?_, replays_follow empty clock,
    fun front now swept id device => ?_⟩
  · obtain ⟨mem, own⟩ := heard_of_stored empty clock stored
    rw [heard_follow] at mem
    obtain ⟨r, received, heard⟩ := List.mem_filterMap.mp mem
    rw [← own]
    exact ((announces r received device).mp heard).id
  · rw [fresh_follow empty clock swept, heard_follow, Lease.latest_filterMap announces]

end Runs

inductive Address
  | ipv4 (value : UInt32)
  | linkLocal (scope : QString)
  deriving DecidableEq

def Address.toString : Address → QString
  | ipv4 value =>
      QString.join QString.dot
        [number (value >>> 24).toNat, number (value >>> 16 % 256).toNat,
          number (value >>> 8 % 256).toNat, number (value % 256).toNat]
  | linkLocal scope => literal "fe80::1%" ++ scope

def addresses : QNetwork Address where
  toIPv4Address
    | .ipv4 value => some value
    | .linkLocal _ => none
  ofIPv4Address := .ipv4
  toString := Address.toString
  localisedPort := fun port => number port.toNat

def laptop : DiscoveryService Address := { deviceName := literal "laptop" }

def announcement (sender : Address) (now : Int) : Datagram Address where
  data := CompactJson.toJson
    [(literal "app", .string (literal "FastTransfer")),
      (literal "device_name", .string (literal "pc")), (literal "tcp_port", .integer 45821)]
  senderAddress := sender
  currentDateTime := now

/-- A device that is heard twice, and lost. -/
theorem consistent_of_unmarked_lost :
    Consistent CompactJson.codec addresses laptop
      [.readyRead [announcement (.ipv4 0x0A000002) 0, announcement (.ipv4 0x0A000002) 3000],
        .cleanup 4000, .cleanup 14000] := by
  refine consistent_of_unmarked rfl (by decide) fun r received device describes => ?_
  have sender : r.datagram.senderAddress = .ipv4 0x0A000002 := by
    simp only [receptions, List.map_cons, List.map_nil, List.append_nil, List.mem_cons,
      List.not_mem_nil, or_false] at received
    rcases received with rfl | rfl <;> rfl
  have ip : device.ip = .ipv4 0x0A000002 := by
    rcases describes.ip with ⟨ipv4Val, value, ip⟩ | ⟨none, -⟩
    · rw [sender] at value
      rw [ip, ← Option.some.inj value]
      rfl
    · rw [sender] at none
      cases none
  rw [ip]
  decide +kernel

def linkLocalRun : List (DiscoveryEvent Address) :=
  [.readyRead [announcement (.linkLocal (literal "2")) 0]]

/-- The second argument goes into the address as well, so that the key has no interface in it. -/
theorem peer_miskeyed :
    (follow CompactJson.codec addresses laptop linkLocalRun).service.devices.toList.map
      (fun entry => (entry.1, addresses.toString entry.2.ip, entry.2.tcpPort)) =
        [(literal "fe80::145821:45821", literal "fe80::1%2", 45821)] ∧
    ¬ ∀ events : List (DiscoveryEvent Address),
      (events.flatMap DiscoveryEvent.clock).Pairwise (· ≤ ·) →
        Consistent CompactJson.codec addresses laptop events := by
  have misses : ((follow CompactJson.codec addresses laptop linkLocalRun).service.devices[
      literal "fe80::145821:45821"]?).any (fun device => literal "fe80::145821:45821" ≠
        addresses.toString device.ip ++ colon :: number device.tcpPort.toNat) = true := by
    decide +kernel
  constructor
  · decide +kernel
  · intro always
    obtain ⟨device, stored, other⟩ := (Option.any_eq_true _ _).mp misses
    have key := (always linkLocalRun (by decide)).keyed _ device stored
    exact of_decide_eq_true other key

end DiscoveryTrace

end FastTransfer
