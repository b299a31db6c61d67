/- FastTransfer/Network/DiscoveryService
   source: src/network/DiscoveryService.h, src/network/DiscoveryService.cpp,
     src/platform/PlatformNetwork.h
   digest: The table of the devices that announce themselves, and the sweep of those that do not. -/

import FastTransfer.Qt.PlaceMarker
import FastTransfer.Qt.QJson

set_option autoImplicit false
set_option relaxedAutoImplicit false

namespace FastTransfer

open QString (literal)

/-- The `QHostAddress` of the platform, and a port as the locale writes it. -/
structure QNetwork (Host : Type) where
  toIPv4Address : Host → Option UInt32
  ofIPv4Address : UInt32 → Host
  toString : Host → QString
  localisedPort : UInt16 → QString

structure NetworkAdapterInfo (Host : Type) where
  ipv4Addresses : List Host

def DEFAULT_TCP_PORT : UInt16 := 45821

/-- The time is in milliseconds. -/
structure DiscoveredDevice (Host : Type) where
  id : QString
  deviceName : QString
  ip : Host
  tcpPort : UInt16 := DEFAULT_TCP_PORT
  osType : QString
  interfaceType : QString
  linkSpeedMbps : UInt64 := 0
  mode : QString
  lastSeen : Int
  deriving DecidableEq

/-- A pending datagram, with the adapters and the time at which the loop takes it. -/
structure Datagram (Host : Type) where
  data : QByteArray
  senderAddress : Host
  adapters : List (NetworkAdapterInfo Host) := []
  currentDateTime : Int

inductive DiscoverySignal (Host : Type)
  | deviceDiscovered (device : DiscoveredDevice Host)
  | deviceUpdated (device : DiscoveredDevice Host)
  | deviceLost (deviceId : QString)
  | devicesChanged
  deriving DecidableEq

structure DiscoveryService (Host : Type) where
  deviceName : QString
  tcpPort : UInt16 := DEFAULT_TCP_PORT
  devices : Std.TreeMap QString (DiscoveredDevice Host) := ∅

namespace DiscoveryService

variable {Host : Type} [DecidableEq Host]

/-- Without the announcement that follows. -/
def setDeviceName (self : DiscoveryService Host) (name : QString) : DiscoveryService Host :=
  if name ≠ [] ∧ self.deviceName ≠ name then { self with deviceName := name } else self

def setTcpPort (self : DiscoveryService Host) (port : UInt16) : DiscoveryService Host :=
  { self with tcpPort := port }

/-- `QString("%1:%2").arg(ip.toString()).arg(port)`. -/
def deviceId (net : QNetwork Host) (ip : Host) (port : UInt16) : QString :=
  let first := QString.arg (literal "%1:%2") (net.toString ip) (net.toString ip)
  QString.arg first (QString.number port.toNat) (net.localisedPort port)

/-- An IPv4-mapped address as IPv4. -/
def senderIp (net : QNetwork Host) (senderAddress : Host) : Host :=
  match net.toIPv4Address senderAddress with
  | some ipv4Val => net.ofIPv4Address ipv4Val
  | none => senderAddress

def isOwnIp (adapters : List (NetworkAdapterInfo Host)) (ip : Host) : Bool :=
  adapters.any fun a => a.ipv4Addresses.contains ip

variable (J : QJson) (net : QNetwork Host)

/-- The device that a datagram announces; none where the loop goes on to the next one. -/
def announced (self : DiscoveryService Host) (datagram : Datagram Host) :
    Option (DiscoveredDevice Host) :=
  let ip := senderIp net datagram.senderAddress
  match J.fromJson datagram.data with
  | none => none
  | some obj =>
      if (obj.value (literal "app")).toString ≠ literal "FastTransfer" then none
      else
        let remoteDeviceName := (obj.value (literal "device_name")).toString
        let remotePort :=
          (J.toInt (obj.value (literal "tcp_port")) DEFAULT_TCP_PORT.toUInt32).toUInt16
        if remoteDeviceName = self.deviceName ∧ remotePort = self.tcpPort ∧
            isOwnIp datagram.adapters ip = true then none
        else
          some
            { id := deviceId net ip remotePort
              deviceName := remoteDeviceName
              ip := ip
              tcpPort := remotePort
              osType := (obj.value (literal "os")).toString
              interfaceType := (obj.value (literal "interface")).toStringOr (literal "Ethernet")
              linkSpeedMbps := J.toULongLong (obj.value (literal "link_speed_mbps"))
              mode := (obj.value (literal "mode")).toStringOr (literal "READY")
              lastSeen := datagram.currentDateTime }

def enter (self : DiscoveryService Host) (dev : DiscoveredDevice Host) :
    DiscoveryService Host × List (DiscoverySignal Host) :=
  let isNew := !self.devices.contains dev.id
  ({ self with devices := self.devices.insert dev.id dev },
    if isNew then [.deviceDiscovered dev, .devicesChanged] else [.deviceUpdated dev])

def onReadyRead (self : DiscoveryService Host) :
    List (Datagram Host) → DiscoveryService Host × List (DiscoverySignal Host)
  | [] => (self, [])
  | datagram :: pending =>
      match self.announced J net datagram with
      | none => self.onReadyRead pending
      | some dev =>
          let (self, first) := self.enter dev
          let (self, rest) := self.onReadyRead pending
          (self, first ++ rest)

def cutoff (now : Int) : Int := now - 10 * 1000

/-- The keys of the devices last seen before the cutoff, in the order of the map. -/
def staleIds (self : DiscoveryService Host) (cutoff : Int) : List QString :=
  (self.devices.toList.filter fun entry => entry.2.lastSeen < cutoff).map Prod.fst

def cleanupStaleDevices (self : DiscoveryService Host) (now : Int) :
    DiscoveryService Host × List (DiscoverySignal Host) :=
  let toRemove := self.staleIds (cutoff now)
  if toRemove = [] then (self, [])
  else
    ({ self with devices := toRemove.foldl (fun devices id => devices.erase id) self.devices },
      toRemove.map .deviceLost ++ [.devicesChanged])

end DiscoveryService

end FastTransfer
