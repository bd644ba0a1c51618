import Mathlib.Data.List.Sort
import WakeWatch.Support.Utf16

/-! # Translation of NT device paths to DOS paths

    A map from device prefixes back to drive letters.  The operating system's
    answers are a parameter: `DriveTable` is what `queryDosDevice` returns for
    every drive name, and it never returns an empty device. -/

namespace WakeDevPath

open Utf16

/-! ## Strings -/

/-- What is left of `s` behind the leading `pat`, if it starts with it. -/
def stripPrefix (s pat : String) : Option String :=
  if pat.toList.isPrefixOf s.toList then
    some (String.ofList (s.toList.drop pat.toList.length))
  else none

def startsWith (s pat : String) : Bool := pat.toList.isPrefixOf s.toList

/-- Last path component, for compact display. -/
def fileName (path : String) : String :=
  String.ofList
    (path.toList.reverse.takeWhile (fun c => c ≠ '\\' && c ≠ '/')).reverse

/-! ## The operating system -/

/-- What a drive query leaves behind: the returned length and the buffer. -/
structure DosAnswer where
  len : UInt32
  buf : List UInt16

/-- The first entry of the NUL-separated answer for `dosName`. -/
def queryDosDevice (answer : String → DosAnswer) (dosName : String) : Option String :=
  let a := answer dosName
  if a.len = 0 then none
  else
    let stop := (a.buf.findIdx? (· = 0)).getD a.buf.length
    if stop = 0 then none else some (fromUtf16Lossy (a.buf.take stop))

/-- The devices behind the drive names, as `queryDosDevice` reports them. -/
structure DriveTable where
  device : String → Option String
  nonempty : ∀ dos d, device dos = some d → d ≠ ""

theorem queryDosDevice_nonempty (answer : String → DosAnswer) (dos d : String)
    (h : queryDosDevice answer dos = some d) : d ≠ "" := by
  simp only [queryDosDevice] at h
  split at h
  · exact nomatch h
  · split at h
    · exact nomatch h
    · next hstop =>
        obtain rfl := Option.some.inj h
        refine fromUtf16Lossy_ne_empty fun hnil => ?_
        rcases List.take_eq_nil_iff.mp hnil with h0 | h0
        · exact hstop h0
        · exact hstop (by simp [h0])

/-- The table of a system that gives these answers. -/
def DriveTable.ofAnswers (answer : String → DosAnswer) : DriveTable :=
  ⟨queryDosDevice answer, queryDosDevice_nonempty answer⟩

/-- A system that knows none of the drive names. -/
def noDrives : DriveTable := .ofAnswers fun _ => ⟨0, []⟩

/-! ## The map -/

/-- Pairs of a device and its drive, longest device first. -/
structure DevicePathMap where
  entries : List (String × String)
  deriving DecidableEq

/-- The drive names `A:` to `Z:`. -/
def dosNames : List String :=
  (List.range 26).map (fun k => String.singleton (Char.ofNat (65 + k)) ++ ":")

namespace DevicePathMap

/-- The sort key of the entries: longest device first, in bytes. -/
def longerFirst (a b : String × String) : Prop := b.1.utf8ByteSize ≤ a.1.utf8ByteSize

instance : DecidableRel longerFirst := fun a b =>
  inferInstanceAs (Decidable (b.1.utf8ByteSize ≤ a.1.utf8ByteSize))

/-- The sort of the entries is stable, so devices of one length stay in the
    order of their letters. -/
def refresh (os : DriveTable) (self : DevicePathMap) : DevicePathMap :=
  let entries := dosNames.filterMap
    (fun dos => (os.device dos).map (fun device => (device, dos)))
  -- longest first, so that a volume is not shadowed by one whose name it extends
  { self with entries := entries.insertionSort longerFirst }

def new (os : DriveTable) : DevicePathMap := refresh os ⟨[]⟩

/-- Returns the DOS form if the path sits under a known device. -/
def tryTranslate (self : DevicePathMap) (ntPath : String) : Option String :=
  self.entries.findSome? fun (device, dos) =>
    match stripPrefix ntPath device with
    | some rest =>
        -- only match on a path boundary, never mid-component
        if rest = "" ∨ startsWith rest "\\" then some (dos ++ rest) else none
    | none => none

/-- Translates, rebuilding the map once if the first attempt misses. -/
def translate (os : DriveTable) (self : DevicePathMap) (ntPath : String) :
    String × DevicePathMap :=
  match self.tryTranslate ntPath with
  | some p => (p, self)
  | none =>
      if startsWith ntPath "\\Device\\" then
        -- drives can appear while the program is running
        let self := self.refresh os
        match self.tryTranslate ntPath with
        | some p => (p, self)
        | none => (ntPath, self)
      else (ntPath, self)

end DevicePathMap

end WakeDevPath
