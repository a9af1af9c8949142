/-
# Client.Fingerprints — verifications that overlap

`FingerprintManager::verifyFingerprint` holds the mutex while it looks a fingerprint up, gives
it back while the user is asked about an unknown one, and takes it again to store what was
accepted. A call is two sections that are atomic under the mutex; the sections of the calls of
several threads follow each other in any order. The answer of the user belongs to the event,
since a callback may answer every time differently.

* `verify_uninterrupted`: a call that no other one comes between is `verifyFingerprint`.
* `pinned_runs_iff`: the stored fingerprints stay in a run exactly when no answer is accepted
  for a host that meanwhile has another one.
* `pin_replaced`: two verifications of a new host, both accepted.
-/
import QinDB.Base.Run
import QinDB.Server.ClientConnection

namespace QinDB.Client

open QinDB.Storage QinDB.Base.Run

set_option autoImplicit false

/-! ## Known hosts -/

inductive FingerprintStatus
  | TRUSTED | UNKNOWN | MISMATCH | ERROR
  deriving DecidableEq, Repr

/-- The fingerprints by host and port, and whom to ask about unknown ones. -/
structure FingerprintManager (F : Type) where
  knownFingerprints : Identifier → Option F
  confirmationCallback : Option (Identifier → UInt16 → F → Bool)

def makeKey (host : Identifier) (port : UInt16) : Identifier :=
  host ++ ':' :: (toString port.toNat).toList

section Fingerprints

variable {C F : Type} [DecidableEq F] (getCertificateFingerprint : C → F)

def FingerprintManager.verifyFingerprint (known : FingerprintManager F) (host : Identifier)
    (port : UInt16) (cert : Option C) : FingerprintStatus × FingerprintManager F :=
  match cert with
  | none => (.ERROR, known)
  | some cert =>
      let fingerprint := getCertificateFingerprint cert
      let key := makeKey host port
      match known.knownFingerprints key with
      | some knownFingerprint =>
          if knownFingerprint = fingerprint then (.TRUSTED, known) else (.MISMATCH, known)
      | none =>
          match known.confirmationCallback with
          | none => (.UNKNOWN, known)
          | some confirm =>
              if confirm host port fingerprint then
                (.TRUSTED, { known with
                  knownFingerprints := Function.update known.knownFingerprints key
                    (some fingerprint) })
              else (.UNKNOWN, known)

end Fingerprints

/-! ## Calls -/

/-- What a call keeps on its stack while the user is asked. -/
structure Asked (F : Type) where
  host : Identifier
  port : UInt16
  fingerprint : F
  deriving DecidableEq, Repr

/-- The manager and the calls that wait for an answer, by thread. -/
structure Verifications (F : Type) where
  manager : FingerprintManager F
  asking : Nat → Option (Asked F)

/-- A section under the mutex: a call up to its return or to the question, and the rest of it
once the user has answered. -/
inductive Section (C : Type)
  | verifyFingerprint (thread : Nat) (host : Identifier) (port : UInt16) (cert : Option C)
  | answered (thread : Nat) (accepted : Bool)

/-- What a call returns; `fingerprint` is that of the certificate it was given. -/
structure Returned (F : Type) where
  host : Identifier
  port : UInt16
  fingerprint : Option F
  status : FingerprintStatus
  deriving DecidableEq, Repr

namespace Verifications

variable {C F : Type}

/-- No call is under way. -/
def start (manager : FingerprintManager F) : Verifications F := ⟨manager, fun _ => none⟩

/-- The fingerprint stored for a host and a port. -/
def stored (s : Verifications F) (host : Identifier) (port : UInt16) : Option F :=
  s.manager.knownFingerprints (makeKey host port)

def store (s : Verifications F) (host : Identifier) (port : UInt16) (fingerprint : F) :
    Verifications F :=
  { s with manager := { s.manager with
      knownFingerprints := Function.update s.manager.knownFingerprints (makeKey host port)
        (some fingerprint) } }

def setAsking (s : Verifications F) (thread : Nat) (asked : Option (Asked F)) :
    Verifications F :=
  { s with asking := Function.update s.asking thread asked }

variable [DecidableEq F] (getCertificateFingerprint : C → F)

/-- One section. A thread that waits for an answer begins no other call. -/
def step (s : Verifications F) : Section C → Option (Returned F) × Verifications F
  | .verifyFingerprint thread host port cert =>
      match s.asking thread with
      | some _ => (none, s)
      | none =>
          match cert with
          | none => (some ⟨host, port, none, .ERROR⟩, s)
          | some cert =>
              let fingerprint := getCertificateFingerprint cert
              match s.stored host port with
              | some knownFingerprint =>
                  if knownFingerprint = fingerprint then
                    (some ⟨host, port, some fingerprint, .TRUSTED⟩, s)
                  else (some ⟨host, port, some fingerprint, .MISMATCH⟩, s)
              | none =>
                  match s.manager.confirmationCallback with
                  | none => (some ⟨host, port, some fingerprint, .UNKNOWN⟩, s)
                  | some _ => (none, s.setAsking thread (some ⟨host, port, fingerprint⟩))
  | .answered thread accepted =>
      match s.asking thread with
      | none => (none, s)
      | some ⟨host, port, fingerprint⟩ =>
          let s := s.setAsking thread none
          if accepted then
            -- the table is not looked at again
            (some ⟨host, port, some fingerprint, .TRUSTED⟩, s.store host port fingerprint)
          else (some ⟨host, port, some fingerprint, .UNKNOWN⟩, s)

/-- A section as a step of a run. -/
def act (s : Verifications F) (sec : Section C) :
    Option (Option (Returned F) × Verifications F) :=
  some (step getCertificateFingerprint s sec)

/-- The pins hold over a section: no stored fingerprint is lost or replaced, and a call that
returns `TRUSTED` saw the certificate whose fingerprint is stored at that moment. -/
def Pinned (s : Verifications F) (sec : Section C) : Prop :=
  let (returned, s') := step getCertificateFingerprint s sec
  (∀ host port fingerprint, s.stored host port = some fingerprint →
    s'.stored host port = some fingerprint) ∧
  ∀ call, returned = some call → call.status = .TRUSTED →
    call.fingerprint.isSome ∧ s'.stored call.host call.port = call.fingerprint

/-- An answer that accepts a fingerprint finds no other one stored for the host and the port. -/
def Undisturbed (s : Verifications F) : Section C → Prop
  | .verifyFingerprint .. => True
  | .answered thread accepted =>
      ∀ asked fingerprint, accepted = true → s.asking thread = some asked →
        s.stored asked.host asked.port = some fingerprint → fingerprint = asked.fingerprint

section Stored

omit [DecidableEq F]

variable (s : Verifications F) (host host' : Identifier) (port port' : UInt16) (fingerprint : F)

@[simp] theorem stored_store : (s.store host port fingerprint).stored host port =
    some fingerprint :=
  Function.update_self ..

/-- Storing changes nothing for a host that has this fingerprint or none. -/
theorem stored_store_of_agreeing {other : F}
    (agreeing : ∀ known, s.stored host port = some known → known = fingerprint)
    (known : s.stored host' port' = some other) :
    (s.store host port fingerprint).stored host' port' = some other := by
  by_cases same : makeKey host' port' = makeKey host port
  · have here : s.stored host port = some other := by
      rw [← known, stored, stored, same]
    rw [agreeing other here, stored, same]
    exact stored_store s host port fingerprint
  · exact (Function.update_of_ne same _ _).trans known

end Stored

/-! ## One section -/

variable {getCertificateFingerprint}

theorem pinned_verifyFingerprint (s : Verifications F) (thread : Nat) (host : Identifier)
    (port : UInt16) (cert : Option C) :
    s.Pinned getCertificateFingerprint (.verifyFingerprint thread host port cert) := by
  simp only [Pinned, step]
  cases s.asking thread with
  | some asked => exact ⟨fun _ _ _ known => known, by rintro _ ⟨⟩⟩
  | none =>
    cases cert with
    | none => exact ⟨fun _ _ _ known => known, by rintro _ ⟨⟩ ⟨⟩⟩
    | some cert =>
      cases looked : s.stored host port with
      | some knownFingerprint =>
        by_cases same : knownFingerprint = getCertificateFingerprint cert
        · simp only [if_pos same]
          refine ⟨fun _ _ _ known => known, ?_⟩
          rintro _ ⟨⟩ _
          exact ⟨rfl, looked.trans (congrArg some same)⟩
        · simp only [if_neg same]
          exact ⟨fun _ _ _ known => known, by rintro _ ⟨⟩ ⟨⟩⟩
      | none =>
        cases s.manager.confirmationCallback with
        | none => exact ⟨fun _ _ _ known => known, by rintro _ ⟨⟩ ⟨⟩⟩
        | some confirm => exact ⟨fun _ _ _ known => known, by rintro _ ⟨⟩⟩

theorem pinned_answered_iff (s : Verifications F) (thread : Nat) (accepted : Bool) :
    s.Pinned getCertificateFingerprint (.answered thread accepted) ↔
      s.Undisturbed (.answered thread accepted : Section C) := by
  rw [Pinned, step, Undisturbed]
  cases waiting : s.asking thread with
  | none =>
    exact iff_of_true ⟨fun _ _ _ known => known, by rintro _ ⟨⟩⟩ (by rintro _ _ _ ⟨⟩)
  | some asked =>
    cases accepted with
    | false =>
      exact iff_of_true ⟨fun _ _ _ known => known, by rintro _ ⟨⟩ ⟨⟩⟩ (by rintro _ _ ⟨⟩)
    | true =>
      constructor
      · rintro ⟨kept, _⟩ asked' fingerprint _ ⟨⟩ known
        -- the accepted fingerprint stands where the old one is still expected
        have after := kept _ _ fingerprint known
        exact (Option.some.inj ((stored_store ..).symm.trans after)).symm
      · intro undisturbed
        refine ⟨fun host port fingerprint known => ?_, ?_⟩
        · exact stored_store_of_agreeing _ _ _ _ _ _
            (fun other stored => undisturbed asked other rfl rfl stored) known
        · rintro _ ⟨⟩ _
          exact ⟨rfl, stored_store ..⟩

theorem pinned_iff (s : Verifications F) (sec : Section C) :
    s.Pinned getCertificateFingerprint sec ↔ s.Undisturbed sec := by
  cases sec with
  | verifyFingerprint thread host port cert =>
    exact iff_of_true (pinned_verifyFingerprint s thread host port cert) trivial
  | answered thread accepted => exact pinned_answered_iff s thread accepted

/-! ## Runs -/

/-- A call that is alone, its question answered by the callback, is the sequential call. -/
theorem verify_uninterrupted (known : Identifier → Option F)
    (confirm : Identifier → UInt16 → F → Bool) (host : Identifier) (port : UInt16)
    (cert : Option C) :
    let manager : FingerprintManager F := ⟨known, some confirm⟩
    let answer := .answered 0 ((cert.map getCertificateFingerprint).any (confirm host port))
    let (returned, s) := step getCertificateFingerprint (start manager)
      (.verifyFingerprint 0 host port cert)
    let (returned', s') := step getCertificateFingerprint s (answer : Section C)
    let (status, manager') := manager.verifyFingerprint getCertificateFingerprint host port cert
    (returned <|> returned').map Returned.status = some status ∧ s'.manager = manager' := by
  cases cert with
  | none => exact ⟨rfl, rfl⟩
  | some cert =>
    simp only [step, start, FingerprintManager.verifyFingerprint, stored]
    cases known (makeKey host port) with
    | some knownFingerprint =>
      by_cases same : knownFingerprint = getCertificateFingerprint cert
      · simp only [if_pos same]
        exact ⟨rfl, trivial⟩
      · simp only [if_neg same]
        exact ⟨rfl, trivial⟩
    | none =>
      simp only [setAsking, Function.update_self, Option.map_some, Option.any_some]
      split <;> exact ⟨rfl, rfl⟩

variable (getCertificateFingerprint) in
/-- In a run of overlapping verifications every section keeps the pins exactly when every
accepted answer finds its host without another fingerprint. -/
theorem pinned_runs_iff (manager : FingerprintManager F) (sections : List (Section C)) :
    Meets (act getCertificateFingerprint) (Pinned getCertificateFingerprint) (start manager)
        sections ↔
      Meets (act getCertificateFingerprint) Undisturbed (start manager) sections :=
  meets_iff_of_invariant (fun s sec (_ : True) => pinned_iff s sec)
    (fun _ _ _ _ _ _ _ => trivial) sections (start manager) trivial

/-- Two threads meet a new host with two certificates; the user accepts both. -/
theorem pin_replaced :
    let manager : FingerprintManager Nat := ⟨fun _ => none, some fun _ _ _ => true⟩
    ¬ Meets (act fun cert : Nat => cert) (Pinned fun cert : Nat => cert) (start manager)
      [.verifyFingerprint 0 ['h'] 24678 (some 1), .verifyFingerprint 1 ['h'] 24678 (some 2),
        .answered 0 true, .answered 1 true] := by
  intro manager meets
  have last := (((meets.2 _ _ rfl).2 _ _ rfl).2 _ _ rfl).1
  have replaced := last.1 ['h'] 24678 1 (by decide)
  exact absurd replaced (by decide)

end Verifications

end QinDB.Client
