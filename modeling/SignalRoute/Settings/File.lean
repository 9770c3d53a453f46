import SignalRoute.Settings.Basic
import SignalRoute.Settings.FileName
import SignalRoute.Text.Json
import SignalRoute.Text.Toml

/-!
# Settings as text

Settings are kept in files, in TOML or JSON.  The end of a file's name picks the format.

* `Settings.parse` reads a text; what it does not mention keeps its default, and names that mean
  nothing are passed over.
* `Settings.render` writes a text, all settings in their order.
* `Settings.load` reads what a file holds and accepts it only if a host can work with it.

Both formats go through `Datum`, so what a record looks like is written down once.  The formats
differ in what they can write: TOML has no integers beyond 63 bits, so there are settings that only
JSON can keep, and JSON has no infinities, so a tick without an end is written as something that
does not read back.
-/

set_option autoImplicit false

namespace SignalRoute

/-! ## From data

One reader for each record, from the inside out.  Only the firmware version and the firmware of a
device are required, since a version that is half known is none.
-/

/-- The version in a record, whose fields are all required. -/
def Firmware.ofDatum? (openEnded : Bool) (d : Datum) : Option Firmware := do
  match ← d.fields? openEnded ["major", "minor", "patch"] with
  | [some major, some minor, some patch] =>
    return ⟨← major.byte?, ← minor.byte?, ← patch.byte?⟩
  | _ => none

/-- The board in a record.  Its firmware is required. -/
def Device.ofDatum? (openEnded : Bool) (d : Datum) : Option Device := do
  match ← d.fields? openEnded ["firmware", "processor_revision", "logging_revision"] with
  | [some firmware, processor, logging] =>
    return ⟨← Firmware.ofDatum? openEnded firmware,
      ← Datum.fieldOr Datum.byte? Device.standard.processorRevision processor,
      ← Datum.fieldOr Datum.byte? Device.standard.loggingRevision logging⟩
  | _ => none

/-- The settings in a record. -/
def Settings.ofDatum? (openEnded : Bool) (d : Datum) : Option Settings := do
  match ← d.fields? openEnded ["response_timeout_ms", "link_queue_capacity", "tick_duration_ms",
    "progress_updates", "device"] with
  | [timeout, capacity, tick, progress, device] =>
    let s := Settings.standard
    return ⟨← Datum.fieldOr Datum.word64? s.responseTimeoutMs timeout,
      ← Datum.fieldOr Datum.word64? s.linkQueueCapacity capacity,
      ← Datum.fieldOr Datum.float? s.tickDurationMs tick,
      ← Datum.fieldOr Datum.word32? s.progressUpdates progress,
      ← Datum.fieldOr (Device.ofDatum? openEnded) s.device device⟩
  | _ => none

/-! ## Formats -/

/-- How settings are written down. -/
inductive FileFormat where
  | toml
  | json
deriving DecidableEq, Repr, Inhabited

namespace FileFormat

/-- A capital letter from `A` to `Z` as a small one. -/
def smallLetter (c : Char) : Char := if 'A' ≤ c ∧ c ≤ 'Z' then .ofNat (c.toNat + 32) else c

/-- The format of a file: JSON if its name ends in `json`, in letters of any size. -/
def ofFileName (f : FileName) : FileFormat :=
  if f.ending?.any fun e => e.map smallLetter == "json".toList then json else toml

def name : FileFormat → String
  | toml => "TOML"
  | json => "JSON"

def read? : FileFormat → String → Option Datum
  | toml => Toml.read?
  | json => Json.read?

/-- Lists in TOML may go on behind the last field of a record. -/
def openEnded : FileFormat → Bool
  | toml => true
  | json => false

end FileFormat

/-! ## Lines -/

/-- A name and a number on a line of TOML. -/
def tomlLine (name value : String) : String := name ++ " = " ++ value ++ "\n"

def decimal8 (n : UInt8) : String := toString n.toNat

/-- The settings in TOML.  It has no integers beyond 63 bits. -/
def Settings.toml? (s : Settings) : Option String :=
  if s.responseTimeoutMs < 0x8000000000000000 ∧ s.linkQueueCapacity < 0x8000000000000000 then
    let d := s.device
    let v := d.firmware
    some (tomlLine "response_timeout_ms" (toString s.responseTimeoutMs.toNat) ++
      tomlLine "link_queue_capacity" (toString s.linkQueueCapacity.toNat) ++
      tomlLine "tick_duration_ms" (Number.positional s.tickDurationMs) ++
      tomlLine "progress_updates" (toString s.progressUpdates.toNat) ++
      "\n[device]\n" ++
      tomlLine "processor_revision" (decimal8 d.processorRevision) ++
      tomlLine "logging_revision" (decimal8 d.loggingRevision) ++
      "\n[device.firmware]\n" ++
      tomlLine "major" (decimal8 v.major) ++
      tomlLine "minor" (decimal8 v.minor) ++
      tomlLine "patch" (decimal8 v.patch))
  else none

/-- An object of JSON over several lines, its members this far from the edge. -/
def jsonObject (indent : Nat) (members : List (String × String)) : String :=
  let edge := String.ofList (List.replicate indent ' ')
  let lines := members.map fun m => edge ++ "\"" ++ m.1 ++ "\": " ++ m.2
  "\x7b\n" ++ String.intercalate ",\n" lines ++ "\n" ++
    String.ofList (List.replicate (indent - 2) ' ') ++ "\x7d"

/-- A double in JSON, which has no infinities. -/
def jsonFloat (x : Float) : String := if x.isFinite then Number.scientific x else "null"

/-- The settings in JSON. -/
def Settings.json (s : Settings) : String :=
  let d := s.device
  let v := d.firmware
  jsonObject 2 [
    ("response_timeout_ms", toString s.responseTimeoutMs.toNat),
    ("link_queue_capacity", toString s.linkQueueCapacity.toNat),
    ("tick_duration_ms", jsonFloat s.tickDurationMs),
    ("progress_updates", toString s.progressUpdates.toNat),
    ("device", jsonObject 4 [
      ("firmware", jsonObject 6 [
        ("major", decimal8 v.major), ("minor", decimal8 v.minor), ("patch", decimal8 v.patch)]),
      ("processor_revision", decimal8 d.processorRevision),
      ("logging_revision", decimal8 d.loggingRevision)])]

/-! ## Texts and files -/

namespace Settings

/-- Read settings. -/
def parse (format : FileFormat) (text : String) : Except Fault Settings :=
  match format.read? text >>= ofDatum? format.openEnded with
  | some s => .ok s
  | none => .error (.settings ("Invalid " ++ format.name ++ " config"))

/-- Write settings. -/
def render (format : FileFormat) (s : Settings) : Except Fault String :=
  match format with
  | .json => .ok s.json
  | .toml =>
    match s.toml? with
    | some text => .ok text
    | none => .error (.settings "Failed to serialize config")

/-- The settings in a file; `none` stands for a file that is not there. -/
def load (file : FileName) (content : Option String) : Except Fault Settings := do
  match content with
  | none => throw .file
  | some text =>
    if !file.reachable then throw .file
    let s ← parse (.ofFileName file) text
    s.validate
    return s

/-- What a file of settings holds. -/
def save (s : Settings) (file : FileName) : Except Fault String := do
  let text ← render (.ofFileName file) s
  if !file.reachable then throw .file
  return text

end Settings
end SignalRoute
