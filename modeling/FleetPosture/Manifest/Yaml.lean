import FleetPosture.Manifest.Basic
import FleetPosture.Yaml.Decode
import FleetPosture.Yaml.Written

/-!
Manifests as YAML. Ignored ports are read but never written.
-/

namespace FleetPosture

open Yaml

def ProcessSpec.ofYaml? (p : Place) : Option ProcessSpec := do
  match ← p.record? ["command", "user", "ports"] with
  | [command, user, ports] =>
    let port? (p : Place) : Option UInt16 := (p.natural? Text.maxU16).map UInt16.ofNat
    some ⟨← Place.required? Place.text? command, ← Place.required? Place.text? user,
      ← Place.defaulted? (Place.list? port?) [] ports⟩
  | _ => none

def HostSpec.ofYaml? (p : Place) : Option HostSpec := do
  match ← p.record? ["prefix", "processes", "ignore_ports"] with
  | [covered, processes, ignored] =>
    let port? (p : Place) : Option UInt16 := (p.natural? Text.maxU16).map UInt16.ofNat
    some ⟨← Place.required? Place.text? covered,
      ← Place.defaulted? (Place.list? ProcessSpec.ofYaml?) [] processes,
      ← Place.defaulted? (Place.list? port?) [] ignored⟩
  | _ => none

def listField {α : Type} (name : String) (item : α → List Char) (items : List α) : List Char :=
  if items.isEmpty then name.toList ++ ": []\n".toList
  else name.toList ++ ":\n".toList ++ items.flatMap item

def ProcessSpec.toYaml (p : ProcessSpec) : List Char :=
  "  - command: ".toList ++ writtenLine 6 p.command ++ "    user: ".toList ++ writtenLine 6 p.user ++
    listField "    ports" (fun n => "    - ".toList ++ (toString n.toNat).toList ++ ['\n']) p.ports

def HostSpec.toYaml (h : HostSpec) : List Char :=
  "- prefix: ".toList ++ writtenLine 4 h.covered ++ listField "  processes" ProcessSpec.toYaml h.processes

namespace Manifest

inductive ReadError
  | malformed
deriving DecidableEq, Repr

def ReadError.message : ReadError → String
  | malformed => "parsing manifest"

def ofPlace? (p : Place) : Option Manifest := do
  match ← p.record? ["specs"] with
  | [specs] => some ⟨← Place.defaulted? (Place.list? HostSpec.ofYaml?) [] specs⟩
  | _ => none

def ofYaml (text : String) : Except ReadError Manifest :=
  match (document? text).bind ofPlace? with
  | some m => .ok m
  | none => .error .malformed

def toYaml (m : Manifest) : String := String.ofList (listField "specs" HostSpec.toYaml m.specs)

end Manifest
end FleetPosture
