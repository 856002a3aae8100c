import SlurmLink.Resource.Quantity
import SlurmLink.Version

/-!
The cluster as a whole: its controllers, and which of them respond.
-/

namespace SlurmLink

/-- The answer of one controller. -/
structure ControllerPing where
  hostname : String
  responding : Bool
  mode : Option String
  latencyUs : Option Nat
  deriving DecidableEq, Repr

namespace ControllerPing

def toJson (p : ControllerPing) : Json :=
  .obj [("hostname", .str p.hostname), ("responding", .bool p.responding),
    ("mode", .ofOption .str p.mode), ("latency_us", .ofOption .ofNat p.latencyUs)]

def ofJson? (v : Json) : Option ControllerPing := do
  let r ← Json.Record.read ["hostname", "responding", "mode", "latency_us"] v
  let hostname ← r.required "hostname" Json.readText
  let responding ← r.required "responding" Json.readBool
  let mode ← r.optional "mode" Json.readText
  let latencyUs ← r.optional "latency_us" Json.readNat64
  return { hostname, responding, mode, latencyUs }

/-- Reads a controller's record in a message. Where it does not say whether the controller responds,
    the older field `pinged` does. -/
def ofWire (v : Json) : Option ControllerPing := do
  let r ← Json.Record.read ["hostname", "pinged", "responding", "mode", "latency"] v
  let hostname ← r.withDefault "hostname" "" Json.readText
  let pinged ← r.setting "pinged" Json.readText
  let responding ← r.setting "responding" Json.readBool
  let mode ← r.setting "mode" Json.readText
  let latencyUs ← r.setting "latency" Json.readNat64
  return {
    hostname, latencyUs
    responding := responding.getD (pinged.any fun p => Text.sameLetters p "UP")
    mode := nonEmpty mode }

end ControllerPing

/-- What is known about a cluster. -/
structure ClusterInfo where
  clusterName : Option String
  release : Option String
  apiVersion : ApiVersion
  controllers : List ControllerPing
  deriving DecidableEq, Repr

namespace ApiVersion

def ofJson? (v : Json) : Option ApiVersion :=
  (Json.readText v).bind fun s => (ApiVersion.parse s).toOption

def toJson (v : ApiVersion) : Json := .str v.toText

end ApiVersion

namespace ProductVersion

def ofJson? (v : Json) : Option ProductVersion :=
  (Json.readText v).bind fun s => (ProductVersion.parse s).toOption

def toJson (v : ProductVersion) : Json := .str v.toText

end ProductVersion

namespace ClusterInfo

/-- A cluster is healthy when one controller responds. -/
def isHealthy (c : ClusterInfo) : Bool := c.controllers.any ControllerPing.responding

def toJson (c : ClusterInfo) : Json :=
  .obj [("cluster_name", .ofOption .str c.clusterName), ("release", .ofOption .str c.release),
    ("api_version", c.apiVersion.toJson), ("controllers", .arr (c.controllers.map (·.toJson)))]

def ofJson? (v : Json) : Option ClusterInfo := do
  let r ← Json.Record.read ["cluster_name", "release", "api_version", "controllers"] v
  let clusterName ← r.optional "cluster_name" Json.readText
  let release ← r.optional "release" Json.readText
  let apiVersion ← r.required "api_version" ApiVersion.ofJson?
  let controllers ← r.required "controllers" (Json.readList ControllerPing.ofJson?)
  return { clusterName, release, apiVersion, controllers }

end ClusterInfo

/-- What a message says about the cluster: its controllers, its name and its release. -/
structure PingReport where
  pings : List ControllerPing := []
  cluster : Option String := none
  release : Option String := none
  deriving DecidableEq, Repr

namespace PingReport

/-- The release and the name of the cluster in the particulars of a message. -/
def readSlurm (v : Json) : Option (Option String × Option String) := do
  let r ← Json.Record.read ["release", "cluster"] v
  let release ← r.setting "release" Json.readText
  let cluster ← r.setting "cluster" Json.readText
  return (release, cluster)

def readMeta (v : Json) : Option (Option String × Option String) := do
  let r ← Json.Record.read ["slurm"] v
  r.withDefault "slurm" (none, none) readSlurm

def ofWire (v : Json) : Option PingReport := do
  let r ← Json.Record.read ["pings", "meta"] v
  let pings ← r.withDefault "pings" [] (Json.readList ControllerPing.ofWire)
  let particulars ← r.withDefault "meta" (none, none) readMeta
  return { pings, release := nonEmpty particulars.1, cluster := nonEmpty particulars.2 }

end PingReport

end SlurmLink
