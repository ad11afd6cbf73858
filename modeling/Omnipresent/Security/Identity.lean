import Omnipresent.Protocol.Ids
import Omnipresent.Transition

/-! This machine's identity on disk, loaded or generated. A call writes the certificate's file
and then the key's, each created empty before its bytes go in, and the process can end
anywhere. The next call looks only at which of the two files there are. -/
namespace Omnipresent
open Transition

structure LocalIdentity where
  certificateDer : List UInt8
  privateKeyDer : List UInt8
  /-- The certificate's. -/
  fingerprint : Fingerprint
deriving DecidableEq

structure KeyMaterial where
  certificateDer : List UInt8
  privateKeyDer : List UInt8
deriving DecidableEq

/-- `io::Error`, as far as a load looks at it. -/
inductive IoError where
  | notFound
  | other (reason : String)
deriving DecidableEq, Repr

inductive IdentityFile where
  | certificate
  | key
deriving DecidableEq, Repr

structure IdentityFiles where
  certificate : Option (List UInt8)
  key : Option (List UInt8)
deriving DecidableEq

def IdentityFiles.put (self : IdentityFiles) (file : IdentityFile) (bytes : List UInt8) : IdentityFiles :=
  match file with
  | .certificate => { self with certificate := some bytes }
  | .key => { self with key := some bytes }

def IdentityFiles.append (self : IdentityFiles) (file : IdentityFile) (bytes : List UInt8) : IdentityFiles :=
  match file with
  | .certificate => { self with certificate := self.certificate.map (· ++ bytes) }
  | .key => { self with key := self.key.map (· ++ bytes) }

/-- `std::fs::read`, which may fail with the file there. -/
def fsRead (failure : Option String) (file : Option (List UInt8)) : Except IoError (List UInt8) :=
  match failure, file with
  | some reason, _ => .error (.other reason)
  | none, some bytes => .ok bytes
  | none, none => .error .notFound

def LocalIdentity.der (self : LocalIdentity) : IdentityFile → List UInt8
  | .certificate => self.certificateDer
  | .key => self.privateKeyDer

inductive LoadStage where
  | reading
  | generating
  /-- The file is about to be created, or cut down to nothing. -/
  | creating (file : IdentityFile) (identity : LocalIdentity)
  /-- So many of its bytes are in the file. -/
  | writing (file : IdentityFile) (identity : LocalIdentity) (written : Nat)
  | returned (result : Except IoError LocalIdentity)

/-- What comes after a file: the certificate's before the key's. -/
def IdentityFile.next (identity : LocalIdentity) : IdentityFile → LoadStage
  | .certificate => .creating .key identity
  | .key => .returned (.ok identity)

inductive LoadEvent where
  /-- Both files are read, whether or not they can be. -/
  | read (certificate key : Option String)
  | generated (result : Except String KeyMaterial)
  | created
  | wrote (count : Nat)
  | finished
  | failed (error : IoError)
  /-- The process ends wherever the call stands, and another calls again. -/
  | restarted

/-- The files, and the call at work on them. -/
structure IdentityStore where
  files : IdentityFiles
  stage : LoadStage

section Load
variable (fingerprintOf : List UInt8 → Fingerprint)

def KeyMaterial.identity (self : KeyMaterial) : LocalIdentity :=
  ⟨self.certificateDer, self.privateKeyDer, fingerprintOf self.certificateDer⟩

def loadOrGenerate (certificate key : Except IoError (List UInt8)) : LoadStage :=
  match certificate, key with
  | .ok certificate, .ok key => .returned (.ok ⟨certificate, key, fingerprintOf certificate⟩)
  | .error (.other reason), _ | _, .error (.other reason) => .returned (.error (.other reason))
  | _, _ => .generating

def generateIdentity (result : Except String KeyMaterial) : LoadStage :=
  match result with
  | .ok material => .creating .certificate (material.identity fingerprintOf)
  | .error reason => .returned (.error (.other ("could not generate identity: " ++ reason)))

namespace IdentityStore

def fresh : IdentityStore := ⟨⟨none, none⟩, .reading⟩

def load (self : IdentityStore) (certificate key : Option String) : LoadStage :=
  loadOrGenerate fingerprintOf (fsRead certificate self.files.certificate) (fsRead key self.files.key)

/-- What can happen next, where it can. -/
def step (self : IdentityStore) (event : LoadEvent) : Option IdentityStore :=
  match self.stage, event with
  | .reading, .read certificate key => some ⟨self.files, self.load fingerprintOf certificate key⟩
  | .generating, .generated result => some ⟨self.files, generateIdentity fingerprintOf result⟩
  | .creating file identity, .created => some ⟨self.files.put file [], .writing file identity 0⟩
  | .writing file identity written, .wrote count =>
    if written + count ≤ (identity.der file).length then
      some ⟨self.files.append file (((identity.der file).drop written).take count),
        .writing file identity (written + count)⟩
    else none
  | .writing file identity written, .finished =>
    if written = (identity.der file).length then some ⟨self.files, file.next identity⟩ else none
  | .creating _ _, .failed error => some ⟨self.files, .returned (.error error)⟩
  | .writing file identity written, .failed error =>
    if written < (identity.der file).length then some ⟨self.files, .returned (.error error)⟩ else none
  | _, .restarted => some ⟨self.files, .reading⟩
  | _, _ => none

def Step (s : IdentityStore) (event : LoadEvent) (t : IdentityStore) : Prop := s.step fingerprintOf event = some t

def Holds (self : IdentityStore) (identity : LocalIdentity) : Prop :=
  self.files = ⟨some identity.certificateDer, some identity.privateKeyDer⟩

/-- The fingerprint is the certificate's. -/
def Fits (identity : LocalIdentity) : Prop := identity.fingerprint = fingerprintOf identity.certificateDer

/-- From here on nothing is written, and a load gives this identity if it can read the files
and gives no other. -/
def Settled (self : IdentityStore) (identity : LocalIdentity) : Prop :=
  ∀ later t, Reaches (Step fingerprintOf) self later t → t.files = self.files ∧
    (∀ other, t.stage = .returned (.ok other) → other = identity) ∧
    t.load fingerprintOf none none = .returned (.ok identity)

def Generated (events : List LoadEvent) (identity : LocalIdentity) : Prop :=
  ∃ material, .generated (.ok material) ∈ events ∧ identity = material.identity fingerprintOf

/-- What a load gives was made by one call of the generator, and every load from then on
gives the same. -/
def Survives (events : List LoadEvent) : Prop :=
  ∀ before s identity, before <+: events → Reaches (Step fingerprintOf) fresh before s →
    s.stage = .returned (.ok identity) →
      Generated fingerprintOf before identity ∧ s.Settled fingerprintOf identity

/-- The call comes to an end before its time. -/
def Breaks : LoadEvent → Prop
  | .failed _ | .restarted => True
  | _ => False

/-- No call ends between the creation of the key's file and its last byte. -/
def Whole (self : IdentityStore) (event : LoadEvent) : Prop :=
  Breaks event → ∀ identity written, self.stage = .writing .key identity written →
    identity.privateKeyDer.length ≤ written

end IdentityStore
end Load

namespace IdentityStore
variable {fingerprintOf : List UInt8 → Fingerprint} {made : LocalIdentity → Prop} {s t : IdentityStore}

/-- The identity with only so many bytes of its key. -/
def cutOff (identity : LocalIdentity) (written : Nat) : LocalIdentity :=
  { identity with privateKeyDer := identity.privateKeyDer.take written }

/-- What the files hold at each stage: a key only beside its certificate. -/
def Sound (made : LocalIdentity → Prop) (s : IdentityStore) : Prop :=
  match s.stage with
  | .reading | .returned (.error _) => s.files.key = none ∨ ∃ identity, made identity ∧ s.Holds identity
  | .generating => s.files.key = none
  | .creating .certificate identity => made identity ∧ s.files.key = none
  | .writing .certificate identity written =>
    made identity ∧ s.files = ⟨some (identity.certificateDer.take written), none⟩
  | .creating .key identity => made identity ∧ s.files = ⟨some identity.certificateDer, none⟩
  | .writing .key identity written => made identity ∧ s.Holds (cutOff identity written)
  | .returned (.ok identity) => made identity ∧ s.Holds identity

theorem Sound.first : IdentityStore.fresh.Sound made := .inl rfl

/-- What each event does, and where the call stands then. -/
def Moves (fingerprintOf : List UInt8 → Fingerprint) (s : IdentityStore) (event : LoadEvent)
    (t : IdentityStore) : Prop :=
  match event with
  | .read certificate key => s.stage = .reading ∧ t = ⟨s.files, s.load fingerprintOf certificate key⟩
  | .generated result => s.stage = .generating ∧ t = ⟨s.files, generateIdentity fingerprintOf result⟩
  | .created => ∃ file identity, s.stage = .creating file identity ∧
      t = ⟨s.files.put file [], .writing file identity 0⟩
  | .wrote count => ∃ file identity written, s.stage = .writing file identity written ∧
      t = ⟨s.files.append file (((identity.der file).drop written).take count),
        .writing file identity (written + count)⟩
  | .finished => ∃ file identity, s.stage = .writing file identity (identity.der file).length ∧
      t = ⟨s.files, file.next identity⟩
  | .failed error => (∀ result, s.stage ≠ .returned result) ∧ s.stage ≠ .reading ∧
      t = ⟨s.files, .returned (.error error)⟩
  | .restarted => t = ⟨s.files, .reading⟩

theorem step_moves (stepped : Step fingerprintOf s event t) : s.Moves fingerprintOf event t := by
  obtain ⟨files, stage⟩ := s
  rw [Step, step.eq_def] at stepped
  cases event with
  | read =>
    cases stage with
    | reading =>
      cases stepped
      exact ⟨rfl, rfl⟩
    | generating | creating | writing | returned => cases stepped
  | generated =>
    cases stage with
    | generating =>
      cases stepped
      exact ⟨rfl, rfl⟩
    | reading | creating | writing | returned => cases stepped
  | created =>
    cases stage with
    | creating file identity =>
      cases stepped
      exact ⟨file, identity, rfl, rfl⟩
    | reading | generating | writing | returned => cases stepped
  | wrote count =>
    cases stage with
    | writing file identity written =>
      obtain ⟨_, same⟩ := Option.ite_none_right_eq_some.mp stepped
      exact ⟨file, identity, written, rfl, (Option.some.inj same).symm⟩
    | reading | generating | creating | returned => cases stepped
  | finished =>
    cases stage with
    | writing file identity written =>
      obtain ⟨rfl, same⟩ := Option.ite_none_right_eq_some.mp stepped
      exact ⟨file, identity, rfl, (Option.some.inj same).symm⟩
    | reading | generating | creating | returned => cases stepped
  | failed error =>
    cases stage with
    | creating file identity =>
      cases stepped
      exact ⟨by rintro _ ⟨⟩, by rintro ⟨⟩, rfl⟩
    | writing file identity written =>
      obtain ⟨_, same⟩ := Option.ite_none_right_eq_some.mp stepped
      exact ⟨by rintro _ ⟨⟩, by rintro ⟨⟩, (Option.some.inj same).symm⟩
    | reading | generating | returned => cases stepped
  | restarted =>
    cases stage with
    | reading | generating | creating | writing | returned =>
      cases stepped
      rfl

/-- What a load comes to: the identity in the files, an error, or a new identity where one
of the files is not there. -/
theorem load_cases (fingerprintOf : List UInt8 → Fingerprint) (s : IdentityStore)
    (certificate key : Option String) :
    (∃ c k, s.files = ⟨some c, some k⟩ ∧
      s.load fingerprintOf certificate key = .returned (.ok ⟨c, k, fingerprintOf c⟩)) ∨
    (∃ error, s.load fingerprintOf certificate key = .returned (.error error)) ∨
    (s.files.certificate = none ∨ s.files.key = none) ∧
      s.load fingerprintOf certificate key = .generating := by
  obtain ⟨⟨certificate', key'⟩, _⟩ := s
  cases certificate with
  | some reason => exact .inr (.inl ⟨.other reason, rfl⟩)
  | none =>
    cases key with
    | some reason => cases certificate' <;> exact .inr (.inl ⟨.other reason, rfl⟩)
    | none =>
      cases certificate' with
      | none => cases key' <;> exact .inr (.inr ⟨.inl rfl, rfl⟩)
      | some certificate =>
        cases key' with
        | none => exact .inr (.inr ⟨.inr rfl, rfl⟩)
        | some key => exact .inl ⟨certificate, key, rfl, rfl⟩

theorem append_take (identity : LocalIdentity) (file : IdentityFile) (written count : Nat) :
    (identity.der file).take written ++ ((identity.der file).drop written).take count =
      (identity.der file).take (written + count) :=
  List.take_add.symm

theorem Sound.loaded (fits : ∀ identity, made identity → Fits fingerprintOf identity)
    (sound : s.files.key = none ∨ ∃ identity, made identity ∧ s.Holds identity) :
    Sound made ⟨s.files, s.load fingerprintOf certificate key⟩ := by
  obtain ⟨c, k, there, same⟩ | ⟨error, same⟩ | ⟨missing, same⟩ :=
    load_cases fingerprintOf s certificate key
  · rw [same]
    obtain absent | ⟨identity, kept, holds⟩ := sound
    · cases (congrArg IdentityFiles.key there).symm.trans absent
    · cases holds.symm.trans there
      refine ⟨?_, there⟩
      rwa [← fits identity kept]
  · rw [same]
    exact sound
  · rw [same]
    refine sound.resolve_right ?_
    rintro ⟨identity, _, holds⟩
    rw [holds] at missing
    obtain absent | absent := missing <;> cases absent

theorem Sound.broken
    (kept : ∀ identity written, s.stage = .writing .key identity written → made identity →
      made (cutOff identity written))
    (sound : s.Sound made) : s.files.key = none ∨ ∃ identity, made identity ∧ s.Holds identity := by
  obtain ⟨files, stage⟩ := s
  cases stage with
  | reading => exact sound
  | generating => exact .inl sound
  | creating file identity =>
    cases file with
    | certificate => exact .inl sound.2
    | key => exact .inl (congrArg IdentityFiles.key sound.2)
  | writing file identity written =>
    cases file with
    | certificate => exact .inl (congrArg IdentityFiles.key sound.2)
    | key => exact .inr ⟨cutOff identity written, kept identity written rfl sound.1, sound.2⟩
  | returned result =>
    cases result with
    | error => exact sound
    | ok identity => exact .inr ⟨identity, sound⟩

theorem Sound.step (fits : ∀ identity, made identity → Fits fingerprintOf identity)
    (known : ∀ material, event = .generated (.ok material) → made (material.identity fingerprintOf))
    (kept : Breaks event → ∀ identity written, s.stage = .writing .key identity written → made identity →
      made (cutOff identity written))
    (sound : s.Sound made) (stepped : Step fingerprintOf s event t) : t.Sound made := by
  have moves := step_moves stepped
  obtain ⟨files, stage⟩ := s
  cases event with
  | read certificate key =>
    obtain ⟨rfl, rfl⟩ := moves
    exact Sound.loaded fits sound
  | generated result =>
    obtain ⟨rfl, rfl⟩ := moves
    cases result with
    | ok material => exact ⟨known material rfl, sound⟩
    | error => exact .inl sound
  | created =>
    obtain ⟨file, identity, rfl, rfl⟩ := moves
    cases file with
    | certificate => exact ⟨sound.1, congrArg (IdentityFiles.mk (some [])) sound.2⟩
    | key => exact ⟨sound.1, congrArg (IdentityFiles.put · .key []) sound.2⟩
  | wrote count =>
    obtain ⟨file, identity, written, rfl, rfl⟩ := moves
    have more := congrArg some (append_take identity file written count)
    cases file with
    | certificate =>
      obtain ⟨made, rfl⟩ := sound
      exact ⟨made, congrArg (IdentityFiles.mk · none) more⟩
    | key =>
      obtain ⟨made, before⟩ := sound
      cases before
      exact ⟨made, congrArg (IdentityFiles.mk _) more⟩
  | finished =>
    obtain ⟨file, identity, rfl, rfl⟩ := moves
    cases file with
    | certificate => exact ⟨sound.1, sound.2.trans (by rw [LocalIdentity.der, List.take_length])⟩
    | key => exact ⟨sound.1, sound.2.trans (by rw [cutOff, LocalIdentity.der, List.take_length])⟩
  | failed error =>
    have left := sound.broken (kept trivial)
    obtain ⟨_, _, rfl⟩ := moves
    exact left
  | restarted =>
    have left := sound.broken (kept trivial)
    cases moves
    exact left

/-- The call reads, or it has returned and gave nothing but the identity in the files. -/
structure Resting (identity : LocalIdentity) (s : IdentityStore) : Prop where
  holds : s.Holds identity
  stage : s.stage = .reading ∨
    ∃ result, s.stage = .returned result ∧ ∀ other, result = .ok other → other = identity

theorem Resting.load (resting : s.Resting identity) (fits : Fits fingerprintOf identity) :
    s.load fingerprintOf none none = .returned (.ok identity) := by
  obtain ⟨c, k, f⟩ := identity
  have same : s.files = ⟨some c, some k⟩ := resting.holds
  rw [IdentityStore.load, same, show f = fingerprintOf c from fits]
  rfl

theorem Resting.step (fits : Fits fingerprintOf identity) (resting : s.Resting identity)
    (stepped : Step fingerprintOf s event t) : t.Resting identity := by
  have moves := step_moves stepped
  obtain ⟨files, stage⟩ := s
  obtain ⟨holds, stands⟩ := resting
  cases event with
  | read certificate key =>
    obtain ⟨rfl, rfl⟩ := moves
    refine ⟨holds, .inr ?_⟩
    obtain ⟨c, k, there, same⟩ | ⟨error, same⟩ | ⟨missing, _⟩ :=
      load_cases fingerprintOf ⟨files, .reading⟩ certificate key
    · cases holds.symm.trans there
      refine ⟨_, same, ?_⟩
      rintro other ⟨⟩
      rw [← fits]
    · exact ⟨_, same, by rintro other ⟨⟩⟩
    · cases holds
      obtain absent | absent := missing <;> cases absent
  | failed error =>
    obtain ⟨running, begun, _⟩ := moves
    obtain reading | ⟨result, returned, _⟩ := stands
    · exact absurd reading begun
    · exact absurd returned (running result)
  | restarted =>
    cases moves
    exact ⟨holds, .inl rfl⟩
  | generated | created | wrote | finished =>
    -- A call at rest has neither to generate nor to write.
    obtain rfl | ⟨result, rfl, _⟩ := stands <;> cases stepped

theorem Resting.settled (fits : Fits fingerprintOf identity)
    (resting : s.Resting identity) : s.Settled fingerprintOf identity := by
  intro later t run
  have still := run.invariant (P := Resting identity) (Resting.step fits) resting
  refine ⟨still.holds.trans resting.holds.symm, fun other given => ?_, still.load fits⟩
  obtain reading | ⟨result, returned, alone⟩ := still.stage
  · cases reading.symm.trans given
  · cases returned.symm.trans given
    exact alone other rfl

theorem Generated.fits (generated : Generated fingerprintOf events identity) : Fits fingerprintOf identity := by
  obtain ⟨material, _, rfl⟩ := generated
  rfl

/-- In a run that breaks off no key, every key in its place is a generated one. -/
theorem Sound.run (whole : Along (Step fingerprintOf) fresh events fun s event _ => s.Whole event)
    (run : Reaches (Step fingerprintOf) fresh events s) : s.Sound (Generated fingerprintOf events) := by
  refine run.along Sound.first (fun {s event t} sound (admitted : s.Whole event ∧ event ∈ events) stepped => ?_)
    (fun before event t u start run stepped _ => ?_) (List.prefix_refl _)
  · refine sound.step (fun _ => Generated.fits) ?_ ?_ stepped
    · rintro material rfl
      exact ⟨material, admitted.2, rfl⟩
    · intro breaks identity written writing known
      rwa [cutOff, List.take_of_length_le (admitted.1 breaks identity written writing)]
  · refine ⟨whole before event t u start run stepped, start.subset ?_⟩
    exact List.mem_append_right _ List.mem_cons_self

theorem Sound.resting (sound : s.Sound made) (given : s.stage = .returned (.ok identity)) :
    made identity ∧ s.Resting identity := by
  obtain ⟨files, stage⟩ := s
  obtain rfl : stage = .returned (.ok identity) := given
  exact ⟨sound.1, sound.2, .inr ⟨_, rfl, by rintro other ⟨⟩; rfl⟩⟩

/-- A step that breaks a key off leaves the part of it that was written, and the call at its
end or its beginning. -/
theorem Sound.cut (sound : s.Sound made) (broken : ¬ s.Whole event) (stepped : Step fingerprintOf s event t) :
    ∃ identity written, made identity ∧ written < identity.privateKeyDer.length ∧
      t.Resting (cutOff identity written) := by
  obtain ⟨files, stage⟩ := s
  simp only [Whole, not_forall, Nat.not_le] at broken
  obtain ⟨breaks, identity, written, rfl, short⟩ := broken
  refine ⟨identity, written, sound.1, short, ?_⟩
  have moves := step_moves stepped
  cases event with
  | failed error =>
    obtain ⟨_, _, rfl⟩ := moves
    exact ⟨sound.2, .inr ⟨_, rfl, by rintro other ⟨⟩⟩⟩
  | restarted =>
    cases moves
    exact ⟨sound.2, .inl rfl⟩
  | read | generated | created | wrote | finished => cases breaks

/-- Where every key that is begun is written whole, what a load gives is a generated identity,
and every load after it gives the same. Where one is not, every load after it gives the
certificate with a part of its key. -/
theorem survives_while_whole (fingerprintOf : List UInt8 → Fingerprint) (events : List LoadEvent) :
    (Along (Step fingerprintOf) fresh events (fun s event _ => s.Whole event) →
      Survives fingerprintOf events) ∧
    (Along (Step fingerprintOf) fresh events (fun s event _ => s.Whole event) →
      ∀ s event t, Reaches (Step fingerprintOf) fresh events s → Step fingerprintOf s event t →
        ¬ s.Whole event → ∃ identity written, Generated fingerprintOf events identity ∧
          written < identity.privateKeyDer.length ∧ t.Settled fingerprintOf (cutOff identity written)) := by
  constructor
  · intro whole before s identity start run given
    have sound := Sound.run (fun before' event t u start' => whole before' event t u (start'.trans start)) run
    obtain ⟨known, resting⟩ := sound.resting given
    exact ⟨known, resting.settled known.fits⟩
  · intro whole s event t run stepped broken
    obtain ⟨identity, written, known, short, resting⟩ := (Sound.run whole run).cut broken stepped
    exact ⟨identity, written, known, short, resting.settled known.fits⟩

def sample : KeyMaterial := ⟨[0xC0, 0xDE], [0x53, 0x3C, 0x12]⟩

def sampleFingerprint : Fingerprint :=
  ⟨[27, 150, 1, 20, 24, 163, 103, 90, 130, 181, 41, 105, 93, 170, 195, 9,
    20, 130, 125, 101, 210, 255, 62, 11, 198, 135, 53, 38, 161, 190, 239, 207], rfl⟩

/-- The first call ends with the key's file created, and the next finds both files there. -/
def endedAtKey : List LoadEvent :=
  [.read none none, .generated (.ok sample), .created, .wrote 2, .finished, .created, .restarted, .read none none]

/-- The second call returns the certificate with no key. -/
theorem key_lost :
    (∃ s, Reaches (Step fun _ => sampleFingerprint) fresh endedAtKey s ∧
      s.stage = .returned (.ok ⟨sample.certificateDer, [], sampleFingerprint⟩)) ∧
    ¬ ∀ events, Survives (fun _ => sampleFingerprint) events := by
  have run : Reaches (Step fun _ => sampleFingerprint) fresh endedAtKey
      ⟨⟨some sample.certificateDer, some []⟩,
        .returned (.ok ⟨sample.certificateDer, [], sampleFingerprint⟩)⟩ :=
    .of_foldlM (fun stepped => stepped) rfl
  refine ⟨⟨_, run, rfl⟩, fun survives => ?_⟩
  obtain ⟨⟨material, called, same⟩, _⟩ := survives endedAtKey endedAtKey _ _ (List.prefix_refl _) run rfl
  have only : material = sample := by simpa [endedAtKey] using called
  cases only
  cases congrArg LocalIdentity.privateKeyDer same

end IdentityStore

end Omnipresent
