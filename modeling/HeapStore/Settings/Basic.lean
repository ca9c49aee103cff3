import HeapStore.Disk.Fault
import HeapStore.Row.Field
import HeapStore.Text.Json

/-!
# Settings

The settings of an engine, each with a value that holds unless it is set.

* `Settings.validate`: the settings with which an engine can work.
* `Settings.timeout`: how long a request for a page waits, as seconds and nanoseconds, and
  `Settings.timeoutLabel` the same as text.
-/

namespace HeapStore

structure Settings where
  /-- The bytes of a page. -/
  pageSize : Nat := 4096
  /-- How many pages the cache has room for. -/
  bufferPages : Nat := 50
  /-- How many milliseconds a request for a page waits. -/
  lockTimeoutMs : Nat := 500
deriving DecidableEq, Repr

/-- What makes settings useless. -/
inductive BadSetting where
  | noBuffer
  | smallPage (size : Nat)

inductive SettingsFault where
  | io (cause : IoFault)
  | json (cause : Json.Fault)
  | invalid (cause : BadSetting)

def BadSetting.message : BadSetting → String
  | .noBuffer => "buffer_pages must be at least 1"
  | .smallPage size => s!"page_size {size} cannot hold a single record"

def Json.Fault.label : Json.Fault → String
  | .wrongCharacter => "Syntax"
  | .wrongValue => "Data"
  | .earlyEnd => "Eof"

namespace SettingsFault

def message : SettingsFault → String
  | .io cause => cause.message
  | .json cause => cause.label
  | .invalid cause => s!"Invalid configuration: {cause.message}"

def label : SettingsFault → String
  | .io _ => "Io"
  | .json _ => "Json"
  | .invalid _ => "Invalid"

open Text.Form

/-- The structured form of a fault. -/
def form (fault : SettingsFault) : String :=
  match fault with
  | .io cause => tuple fault.label [cause.form]
  | .json cause => tuple fault.label [cause.label]
  | .invalid cause => tuple fault.label [Text.quote cause.message]

end SettingsFault

namespace Settings

variable (s : Settings)

/-- The least size of a page: a row of one number, and a byte of its header. -/
def minPageSize : Nat := FieldType.int.width + 1

/-- The settings, if the cache has room for a page and a page has room for a row. -/
def validate : Except SettingsFault Settings :=
  if s.bufferPages = 0 then .error (.invalid .noBuffer)
  else if s.pageSize < minPageSize then .error (.invalid (.smallPage s.pageSize))
  else .ok s

/-- The seconds of the timeout, and the nanoseconds of the rest. -/
def timeout : Nat × Nat := (s.lockTimeoutMs / 1000, s.lockTimeoutMs % 1000 * 1000000)

/-- The decimals of a number of thousandths, without zeros at their end. -/
def thousandths (n : Nat) : String :=
  if n = 0 then ""
  else
    let digits := (Nat.toDigits 10 (1000 + n)).drop 1
    "." ++ String.ofList (digits.reverse.dropWhile (· == '0')).reverse

/-- The timeout in the unit that suits it. -/
def timeoutLabel : String :=
  if s.lockTimeoutMs = 0 then "0ns"
  else if s.lockTimeoutMs < 1000 then s!"{s.lockTimeoutMs}ms"
  else s!"{s.lockTimeoutMs / 1000}{thousandths (s.lockTimeoutMs % 1000)}s"

example : ({ lockTimeoutMs := 1050 } : Settings).timeoutLabel = "1.05s" := by decide +kernel

end Settings

end HeapStore
