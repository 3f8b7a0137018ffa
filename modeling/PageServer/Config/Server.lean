import PageServer.Config.Properties
import PageServer.Config.Size
import PageServer.Site.Basic
import PageServer.Yaml.Mapping

/-!
# Server configuration

A configuration is a flat mapping. Every field has a default; an unknown field,
a repeated one and a value that is not of its field's kind are refused.
-/

namespace PageServer

structure ServerConfig where
  address : String
  /-- The domain of session cookies when a request names no usable host. -/
  domain : String
  port : UInt16
  workerThreads : UInt64
  /-- Seconds for which a session lives after it was found. -/
  sessionTimeout : UInt64
  /-- Seconds between two sweeps of dead sessions. -/
  sweepInterval : UInt64
  documentRoot : String
  mimeConfig : Option String
  workersConfig : Option String
  internalPrefix : String
  maxHeaderBytes : UInt64
  deriving DecidableEq, Repr

namespace ServerConfig

open Yaml (Scalar)

def standard : ServerConfig where
  address := "127.0.0.1"
  domain := "localhost"
  port := 5721
  workerThreads := 10
  sessionTimeout := 600
  sweepInterval := 300
  documentRoot := "webroot"
  mimeConfig := none
  workersConfig := none
  internalPrefix := Site.defaultInternalPrefix
  maxHeaderBytes := 16384

/-! ### Values of fields -/

/-- Digits that a whole number may not be written with: more than one, of which
the first is zero. -/
def isPadded (cs : List Char) : Bool :=
  cs.length > 1 && cs.head? == some '0' && cs.all Char.isDigit

/-- Whether a scalar may be read as a number: it is plain, or kept as it is and
tagged as one. -/
def isNumeric (s : Scalar) : Bool :=
  s.style == .plain || (s.style == .literal && s.tag == some "tag:yaml.org,2002:int")

/-- The whole number of a scalar below a bound of at most 64 bits, in decimal or
after the mark of another base. -/
def wholeNumber? (bound : Nat) (s : Scalar) : Option Nat :=
  let unsigned := match s.text.toList with
    | '+' :: rest => rest
    | cs => cs
  if !isNumeric s then none
  else
    match unsigned with
    | '0' :: 'x' :: ds => Decimal.natIn? 16 bound ds
    | '0' :: 'o' :: ds => Decimal.natIn? 8 bound ds
    | '0' :: 'b' :: ds => Decimal.natIn? 2 bound ds
    | ds => if isPadded ds then none else Decimal.natIn? 10 bound ds

/-- The ways in which plain text says that there is no value. -/
def absences : List String := ["~", "null", "Null", "NULL"]

/-- What a scalar says of a text that may be left out. One with a tag is a text,
but where the tag itself says that there is none. -/
def optionalText? (s : Scalar) : Option (Option String) :=
  if s.style != .plain then some s.text
  else
    match s.tag with
    | none => if s.text.isEmpty || absences.contains s.text then some none else some s.text
    | some tag =>
      if tag != "tag:yaml.org,2002:null" then some s.text
      else if absences.contains s.text then some none
      else none

/-- Sets a field to what a scalar says, if that is of the field's kind. -/
def set? (field : String) (s : Scalar) (c : ServerConfig) : Option ServerConfig :=
  let word (f : UInt64 → ServerConfig) : Option ServerConfig :=
    (wholeNumber? UInt64.size s).map fun n => f (UInt64.ofNat n)
  match field with
  | "address" => some { c with address := s.text }
  | "domain" => some { c with domain := s.text }
  | "port" => (wholeNumber? UInt16.size s).map fun n => { c with port := UInt16.ofNat n }
  | "worker_threads" => word fun n => { c with workerThreads := n }
  | "session_timeout_secs" => word fun n => { c with sessionTimeout := n }
  | "session_sweep_interval_secs" => word fun n => { c with sweepInterval := n }
  | "document_root" => some { c with documentRoot := s.text }
  | "mime_config" => (optionalText? s).map fun t => { c with mimeConfig := t }
  | "workers_config" => (optionalText? s).map fun t => { c with workersConfig := t }
  | "internal_prefix" => some { c with internalPrefix := s.text }
  | "max_header_bytes" => word fun n => { c with maxHeaderBytes := n }
  | _ => none

/-- Sets fields one after another, none of them twice. -/
def setAll? (seen : List String) : Yaml.Pairs → ServerConfig → Option ServerConfig
  | [], c => some c
  | (key, value) :: rest, c =>
    if seen.contains key.text then none
    else (c.set? key.text value).bind fun c => setAll? (key.text :: seen) rest c

/-- The configuration of a text, all other fields having their defaults. -/
def parse? (text : String) : Option ServerConfig :=
  (Yaml.parse? text).bind fun pairs => setAll? [] pairs standard

/-! ### Validity -/

inductive Fault where
  | noWorkers
  | noSessionTimeout
  | noSweepInterval
  | relativePrefix
  deriving DecidableEq, Repr

def Fault.message : Fault → String
  | noWorkers => "worker_threads must be at least 1"
  | noSessionTimeout => "session_timeout_secs must be at least 1"
  | noSweepInterval => "session_sweep_interval_secs must be at least 1"
  | relativePrefix => "internal_prefix must start with `/`"

def fault? (c : ServerConfig) : Option Fault :=
  if c.workerThreads = 0 then some .noWorkers
  else if c.sessionTimeout = 0 then some .noSessionTimeout
  else if c.sweepInterval = 0 then some .noSweepInterval
  else if !c.internalPrefix.isEmpty && c.internalPrefix.toList.head? != some '/' then
    some .relativePrefix
  else none

/-! ### Use -/

def socketAddress (c : ServerConfig) : String :=
  c.address ++ ":" ++ Decimal.natText c.port.toNat

/-- What a running server needs to know besides its site. -/
structure Settings where
  domain : String
  workerThreads : UInt64
  sessionTimeout : UInt64
  sweepInterval : UInt64
  stackSize : Nat
  maxHeaderBytes : UInt64
  deriving DecidableEq, Repr

def settings (c : ServerConfig) (stackSize : Nat) : Settings :=
  ⟨c.domain, c.workerThreads, c.sessionTimeout, c.sweepInterval, stackSize, c.maxHeaderBytes⟩

/-- The configuration with its paths seen from a directory. -/
def resolvePaths (base : String) (c : ServerConfig) : ServerConfig :=
  { c with
    documentRoot := Site.resolveFrom base c.documentRoot
    mimeConfig := c.mimeConfig.map (Site.resolveFrom base)
    workersConfig := c.workersConfig.map (Site.resolveFrom base) }

end ServerConfig

end PageServer
