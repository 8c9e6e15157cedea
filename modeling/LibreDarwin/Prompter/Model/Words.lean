import LibreDarwin.Prompter.Model.Panel

/-!
# The words on the screen

Every word a dialog shows is looked up in the catalogue of the bundle the
prompter runs out of, under a key, with a sentence beside it for where
there is no catalogue. What Foundation does with a format is a parameter.
-/

namespace LibreDarwin

namespace Prompter

/-- The code units of a character. -/
def utf16Scalar (c : Char) : NSString :=
  if c.toNat < 0x10000 then [c.toNat.toUInt16]
  else
    [(0xD800 + (c.toNat - 0x10000) / 0x400).toUInt16,
      (0xDC00 + (c.toNat - 0x10000) % 0x400).toUInt16]

/-- `nsstr`: what is handed over is a C string, which ends at its first
NUL. -/
def nsstr (s : String) : NSString := (s.toList.takeWhile (·.toNat ≠ 0)).flatMap utf16Scalar

/-- **What is Foundation's**: the main bundle's catalogue, and
`stringWithFormat:`. -/
structure Foundation where
  catalogue : String → Option NSString
  stringWithFormat : NSString → List NSString → NSString

/-- `localizedStringForKey:value:table:`. -/
def Foundation.localizedStringForKey (F : Foundation) (key : String) (value : NSString) :
    NSString :=
  match F.catalogue key with
  | some s => s
  | none => if value = [] then nsstr key else value

variable (F : Foundation)

def localized (key fallback : String) : NSString :=
  let s := F.localizedStringForKey key (nsstr fallback)
  if s.length ≠ 0 then s else nsstr fallback

def kTokenExtensionSigningId : String := "org.librescrs.LibreMac.LibreMacToken"

structure RequesterWording where
  key : String
  fallback : String
  deriving DecidableEq, Repr

def wordingForRequester (requester : String) : Option RequesterWording :=
  if requester = kTokenExtensionSigningId then
    some ⟨"prompter_requester_keychain", "%@ (Keychain)"⟩
  else none

def requesterName (requester : String) : NSString :=
  match wordingForRequester requester with
  | some wording => F.stringWithFormat (localized F wording.key wording.fallback) [nsstr requester]
  | none => nsstr requester

end Prompter

end LibreDarwin
