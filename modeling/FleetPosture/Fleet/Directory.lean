import FleetPosture.Failure
import FleetPosture.Fleet.Target
import FleetPosture.Net.Http
import FleetPosture.Snapshot.Json

/-!
The directory of a fleet: a service that lists the machines of a deployment.
-/

namespace FleetPosture.Fleet

structure Directory where
  url : String
  deployment : String
  credentials : Option Net.Credentials
  timeoutSecs : Nat
deriving DecidableEq, Repr

def Target.ofJson? (v : Json) : Option Target := do
  match ← v.record? ["job", "index", "id", "ips"] with
  | [job, index, id, ips] =>
    some ⟨← Json.required? Json.text? job, ← Json.optional? Json.uint32? index,
      ← Json.defaulted? Json.text? "" id, ← Json.defaulted? Json.texts? [] ips⟩
  | _ => none

namespace Directory

def userAgent : String := "fleetaudit/0.1.0"

/-- Where the machines of the deployment are listed, relative to the directory's URL. -/
def listUrl (d : Directory) : Except Failure Net.Url := do
  let during (activity : String) (fault : Net.Url.Fault) : Failure :=
    (Failure.of fault.message).during activity
  let base ← (Net.Url.parse d.url).mapError (during ("invalid directory url " ++ d.url))
  (base.join ("deployments/" ++ d.deployment ++ "/vms")).mapError (during "building vms url")

def request (d : Directory) (url : Net.Url) : Net.HttpRequest :=
  ⟨url, (url.credentials?.or d.credentials).map Net.Credentials.header, userAgent, d.timeoutSecs⟩

def machines? (body : Text.Bytes) : Option (List Target) := do
  let text ← (Text.utf8Decode body).toOption
  (← Json.parse? text).list? Target.ofJson?

def read (url : Net.Url) : Except Failure Net.HttpReply → Except Failure (List Target)
  | .error cause => .error (cause.during ("GET " ++ url.text))
  | .ok reply =>
    if !reply.isSuccess then .error (.of ("GET " ++ url.text ++ ": " ++ reply.statusText))
    else
      match machines? reply.body with
      | some ts => .ok ts
      | none => .error (.of "decoding vm list")

def list {m : Type → Type} [Monad m] (d : Directory)
    (fetch : Net.HttpRequest → m (Except Failure Net.HttpReply)) :
    m (Except Failure (List Target)) :=
  match d.listUrl with
  | .error f => pure (.error f)
  | .ok url => do pure (read url (← fetch (d.request url)))

end Directory
end FleetPosture.Fleet
