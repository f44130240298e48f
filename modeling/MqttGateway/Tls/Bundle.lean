import MqttGateway.Pem
/-!
# Bundles

Files that hold any number of armoured sections, certificates and keys among them, with other text
in between. A section begins with a line of its label between dashes. It need not be a text.
-/
namespace MqttGateway

/-- The kinds of sections that are looked for, and the kinds that are only passed over if they are
well formed. -/
inductive SectionKind
  | certificate
  | wrappedKey
  | rsaKey
  | ecKey
  | other
  deriving DecidableEq, Repr

structure ArmouredSection where
  kind : SectionKind
  content : Octets
  deriving DecidableEq, Repr

namespace SectionKind

/-- The kind that a label stands for; sections with other labels are ignored. -/
def ofLabel? (label : Octets) : Option SectionKind :=
  let known := [("CERTIFICATE", certificate), ("PRIVATE KEY", wrappedKey),
    ("RSA PRIVATE KEY", rsaKey), ("EC PRIVATE KEY", ecKey), ("PUBLIC KEY", other),
    ("X509 CRL", other), ("CERTIFICATE REQUEST", other), ("ECHCONFIG", other)]
  (known.find? fun (name, _) => Utf8.encode name == label).map (·.2)

end SectionKind

namespace Bundle

/-- Lines without the line feed or carriage return that ends them. -/
def lines : Octets → List Octets
  | [] => []
  | b :: rest =>
    if b = 0x0A ∨ b = 0x0D then [] :: lines rest
    else match lines rest with
      | [] => [[b]]
      | line :: more => (b :: line) :: more

def opening : Octets := Utf8.encode "-----BEGIN "

def closing (label : Octets) : Octets :=
  Utf8.encode "-----END " ++ label ++ Utf8.encode "-----"

/-- The label of an opening line, which five dashes end, with blanks anywhere among them. -/
def label? (line : Octets) : Option Octets :=
  let back := line.reverse
  let tail := back.takeWhile fun b => b = 0x2D ∨ b = 0x20
  if tail.count 0x2D ≠ 5 then none
  else
    let trailer := (tail.reverse.dropWhile (· = 0x20)).length
    some ((line.take (line.length - trailer)).drop opening.length)

/-- The octets that base 64 with blanks stands for. -/
def base64? (text : Octets) : Option Octets :=
  Pem.base64? ((text.filter fun b => !Pem.isAsciiBlank b).map fun b => Char.ofNat b.toNat)

/-- Sections up to the first that is not well formed, and whether there is none such. -/
structure Sections where
  sections : List ArmouredSection
  isSound : Bool
  deriving DecidableEq, Repr

def Sections.cons (s : ArmouredSection) (rest : Sections) : Sections :=
  { rest with sections := s :: rest.sections }

/-- The sections in some lines, where one with the given label and text may have begun. -/
def sectionsFrom : Option Octets → Octets → List Octets → Sections
  | begun, _, [] => ⟨[], begun.isNone⟩
  | begun, text, line :: rest =>
    if opening.isPrefixOf line then
      match label? line with
      | some label => sectionsFrom (some label) text rest
      | none => ⟨[], false⟩
    else match begun with
      | none => sectionsFrom none text rest
      | some label =>
        if (closing label).isPrefixOf line then
          match SectionKind.ofLabel? label, base64? text with
          | none, _ => sectionsFrom none [] rest
          | some kind, some content => (sectionsFrom none [] rest).cons ⟨kind, content⟩
          | some _, none => ⟨[], false⟩
        else sectionsFrom begun (text ++ line) rest

def ofFile (file : Octets) : Sections :=
  sectionsFrom none [] (lines file)

/-- Every certificate in a file, unless some section of it is not well formed. -/
def certificates? (file : Octets) : Option (List Octets) :=
  let found := ofFile file
  if found.isSound then some ((found.sections.filter (·.kind = .certificate)).map (·.content))
  else none

/-- The first section with a key, if there is one before any that is not well formed. -/
def key? (file : Octets) : Option (Option ArmouredSection) :=
  let found := ofFile file
  match found.sections.find? fun s => s.kind ≠ .certificate ∧ s.kind ≠ .other with
  | some key => some (some key)
  | none => if found.isSound then some none else none

end Bundle
end MqttGateway
