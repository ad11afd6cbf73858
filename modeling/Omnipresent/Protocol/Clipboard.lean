import Omnipresent.Checked
import Omnipresent.Protocol.Control

/-! The cap on clipboard payloads, and the check both ends make before moving one. -/
namespace Omnipresent

def maxClipboardBytes : Nat := 64 * 1024 * 1024

structure ClipboardValidationError where
  message : String
deriving DecidableEq, Repr

/-- A length as `{:?}` shows it. -/
def debugLen : Option Nat → String
  | none => "None"
  | some length => s!"Some({length})"

/-- The size the dimensions imply, `none` where it overflows. -/
def ClipboardImage.expectedLen (self : ClipboardImage) : Option Nat :=
  (Checked.mulU64 self.width.toNat self.height.toNat).bind (Checked.mulU64 · 4)

def ClipboardImage.validate (self : ClipboardImage) : Except ClipboardValidationError Unit :=
  if some self.bytes.length ≠ self.expectedLen then
    .error ⟨s!"image byte size mismatch: expected {debugLen self.expectedLen} bytes " ++
      s!"({self.width}x{self.height}x4), got {self.bytes.length}"⟩
  else if maxClipboardBytes < self.bytes.length then
    .error ⟨s!"image is {self.bytes.length} bytes, over the {maxClipboardBytes}-byte limit"⟩
  else .ok ()

/-- The widths of a `usize`. -/
inductive WordSize where
  | bits32
  | bits64
deriving DecidableEq, Repr

def WordSize.bits : WordSize → Nat
  | bits32 => 32
  | bits64 => 64

namespace ClipboardImage

def expectedLenOn (self : ClipboardImage) (word : WordSize) : Option Nat :=
  (Checked.mul word.bits self.width.toNat self.height.toNat).bind (Checked.mul word.bits · 4)

def validateOn (self : ClipboardImage) (word : WordSize) : Except ClipboardValidationError Unit :=
  if some self.bytes.length ≠ self.expectedLenOn word then
    .error ⟨s!"image byte size mismatch: expected {debugLen (self.expectedLenOn word)} bytes " ++
      s!"({self.width}x{self.height}x4), got {self.bytes.length}"⟩
  else if maxClipboardBytes < self.bytes.length then
    .error ⟨s!"image is {self.bytes.length} bytes, over the {maxClipboardBytes}-byte limit"⟩
  else .ok ()

theorem validate_eq (self : ClipboardImage) : self.validate = self.validateOn .bits64 := rfl

/-- The first product overflows only where the second one does. -/
theorem expectedLenOn_eq_some {self : ClipboardImage} {word : WordSize} :
    self.expectedLenOn word = some length ↔
      length = self.width.toNat * self.height.toNat * 4 ∧ length < 2 ^ word.bits := by
  rw [expectedLenOn, Option.bind_eq_some_iff]
  simp only [Checked.mul_eq_some]
  constructor
  · rintro ⟨area, ⟨rfl, _⟩, rfl, fits⟩
    exact ⟨rfl, fits⟩
  · rintro ⟨rfl, fits⟩
    exact ⟨_, ⟨rfl, by omega⟩, rfl, fits⟩

theorem maxClipboardBytes_lt (word : WordSize) : maxClipboardBytes < 2 ^ word.bits := by
  cases word <;> decide

theorem validateOn_eq_ok {self : ClipboardImage} {word : WordSize} :
    self.validateOn word = .ok () ↔
      self.expectedLenOn word = some self.bytes.length ∧ self.bytes.length ≤ maxClipboardBytes := by
  rw [validateOn]
  split
  · rename_i apart
    exact iff_of_false (fun failed => by cases failed) fun ⟨same, _⟩ => apart same.symm
  · rename_i same
    split
    · exact iff_of_false (fun failed => by cases failed) (by omega)
    · exact iff_of_true rfl ⟨(not_not.mp same).symm, by omega⟩

/-- Whatever the word, what passes is what has the size its dimensions imply, as natural
numbers, within the cap. -/
theorem validateOn_exact (self : ClipboardImage) (word : WordSize) :
    self.validateOn word = .ok () ↔
      self.bytes.length = self.width.toNat * self.height.toNat * 4 ∧ self.bytes.length ≤ maxClipboardBytes := by
  have below := maxClipboardBytes_lt word
  rw [validateOn_eq_ok, expectedLenOn_eq_some]
  constructor
  · rintro ⟨⟨same, _⟩, small⟩
    exact ⟨same, small⟩
  · rintro ⟨same, small⟩
    exact ⟨⟨same, by omega⟩, small⟩

end ClipboardImage

def ClipboardData.validate : ClipboardData → Except ClipboardValidationError Unit
  | .text content =>
    if maxClipboardBytes < content.utf8ByteSize then
      .error ⟨s!"text is {content.utf8ByteSize} bytes, over the {maxClipboardBytes}-byte limit"⟩
    else .ok ()
  | .image pixels => pixels.validate

theorem ClipboardData.validate_ok {data : ClipboardData} (valid : data.validate = .ok ()) :
    match data with
    | .text content => content.utf8ByteSize ≤ maxClipboardBytes
    | .image pixels => pixels.bytes.length = pixels.width.toNat * pixels.height.toNat * 4 ∧
        pixels.bytes.length ≤ maxClipboardBytes := by
  cases data with
  | text content =>
    simp only [validate] at valid ⊢
    split at valid
    · cases valid
    · omega
  | image pixels =>
    have passes : pixels.validateOn .bits64 = .ok () := pixels.validate_eq.symm.trans valid
    obtain ⟨expected, small⟩ := ClipboardImage.validateOn_eq_ok.mp passes
    exact ⟨(ClipboardImage.expectedLenOn_eq_some.mp expected).1, small⟩

end Omnipresent
