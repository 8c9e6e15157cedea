import LibreDarwin.Common.Utf8
import LibreDarwin.Prompter.Model.Protocol

/-!
# The documents a consent lists

How the untrusted names of a batch become lines of the prompt. A name is
a `std::string`, any bytes.
-/

namespace LibreDarwin

namespace Prompter

open Wire Utf8

def kMaxBytes : ℕ := 128

/-- The separators and direction controls looked for, in the order they
are replaced. -/
def separators : List Bytes :=
  [ [0xE2, 0x80, 0xA8], [0xE2, 0x80, 0xA9], [0xC2, 0x85],
    [0xE2, 0x80, 0x8E], [0xE2, 0x80, 0x8F],
    [0xE2, 0x80, 0xAA], [0xE2, 0x80, 0xAB], [0xE2, 0x80, 0xAC], [0xE2, 0x80, 0xAD],
    [0xE2, 0x80, 0xAE],
    [0xE2, 0x81, 0xA6], [0xE2, 0x81, 0xA7], [0xE2, 0x81, 0xA8], [0xE2, 0x81, 0xA9] ]

/-- U+2026 -/
def ellipsis : Bytes := [0xE2, 0x80, 0xA6]

def neutralizeByte (c : UInt8) : UInt8 := if c < 0x20 ∨ c = 0x7f then 0x20 else c

/-- The cut is at most `kMaxBytes`, and before no continuation byte. -/
def elide (name : Bytes) : Bytes :=
  if kMaxBytes < name.length then name.take (cutBack name kMaxBytes) ++ ellipsis else name

def neutralizeDisplayName (name : Bytes) : Bytes :=
  elide (separators.foldl (fun name sep => replaceAll sep 0x20 name) (name.map neutralizeByte))

structure UntrustedArtifactList where
  block : Bytes := []
  omitted : ℕ := 0
  deriving DecidableEq, Repr

/-- Two blanks, U+2022 and a blank. -/
def bulletPrefix : Bytes := [0x20, 0x20, 0xE2, 0x80, 0xA2, 0x20]

def newline : UInt8 := 0x0A

/-- How many names are listed; 0 is unlimited. -/
def shownCount (names : List Bytes) (maxItems : ℕ) : ℕ :=
  if maxItems = 0 then names.length else min names.length maxItems

def formatUntrustedArtifactList (names : List Bytes) (maxItems : ℕ) : UntrustedArtifactList :=
  if names.isEmpty then {}
  else
    { block :=
        (names.take (shownCount names maxItems)).foldl
          (fun block name =>
            (if block.isEmpty then block else block ++ [newline]) ++ bulletPrefix ++
              neutralizeDisplayName name) []
      omitted := names.length - shownCount names maxItems }

end Prompter

end LibreDarwin
