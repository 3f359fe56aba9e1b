import Verdant.Action.Preview

/-!
# Seals and their proof

A seal is verified by `reconstruct_with` alone, which trusts the flag that both `decode` and `decode_with` set.  So a
verified seal has the whole chain of its owners exactly where no `reconstruct_with` is accepted on the word of the
marker `decode`.
-/

namespace Verdant.Action

/-- A refusal of the profile's owner: its code and its debug text. -/
structure SealedError where
  code : String
  detail : String
  deriving DecidableEq

def SealedError.ledgerDigestMismatch : SealedError := ⟨"s03-ledger-digest-mismatch", "LedgerDigestMismatch"⟩

def PreviewError.ofSealed (error : SealedError) : PreviewError := .sealed error.code error.detail

/-- The owners as they answer at one call; their hash tool may fail at any. -/
structure SealOwners (Report Plan : Type) where
  ledgerStatus : Profile → List UInt8 → Except SealedError Unit
  fromPayloads : List String → Except SealedError Profile
  verifyReport : Profile → Report → Plan → Except SealedError Unit

variable {Report Plan : Type}

/-! ### The methods -/

namespace SealOrder

def new : SealOrder := ⟨false, false, false, none, none, false⟩

variable (order : SealOrder)

def checkCustody : Except PreviewError SealOrder := .ok { order with custody := true }

def decode : Except PreviewError SealOrder :=
  if !order.custody then .error (.sealOrder "decode before custody") else .ok { order with decoded := true }

def reconstruct : Except PreviewError SealOrder :=
  if !order.custody || !order.decoded then .error (.sealOrder "reconstruct before decode")
  else .ok { order with reconstructed := true }

/-- The held profile differs from the incoming one; a first custody is a change from nothing. -/
def subjectChanged (held : Option Profile) (incoming : Profile) : Bool := held ≠ some incoming

/-- Proof of the old subject does not survive a change of subject. -/
def rebindCustody (incoming : Profile) (ledgerBytes : List UInt8) : SealOrder :=
  let kept := if subjectChanged order.profile incoming then
      { order with decoded := false, reconstructed := false, verified := false }
    else order
  { kept with custody := true, profile := some incoming, ledger := some ledgerBytes }

def checkCustodyWith (owners : SealOwners Report Plan) (profile : Profile) (ledgerBytes : List UInt8) :
    Except PreviewError SealOrder := do
  (owners.ledgerStatus profile ledgerBytes).mapError .ofSealed
  .ok (order.rebindCustody profile ledgerBytes)

def decodeWith (owners : SealOwners Report Plan) (payloads : List String) : Except PreviewError SealOrder :=
  if !order.custody || order.profile.isNone then .error (.sealOrder "decode requires real custody")
  else do
    let decoded ← (owners.fromPayloads payloads).mapError .ofSealed
    match order.profile with
    | some held =>
      if held = decoded then .ok { order with decoded := true } else .error (.ofSealed .ledgerDigestMismatch)
    | none => .error (.sealOrder "decode requires real custody")

def reconstructWith (owners : SealOwners Report Plan) (report : Report) (plan : Plan) :
    Except PreviewError SealOrder :=
  if !order.custody || !order.decoded then .error (.sealOrder "reconstruct before decode")
  else
    match order.profile with
    | none => .error (.sealOrder "reconstruct requires decoded profile")
    | some profile => do
      (owners.verifyReport profile report plan).mapError .ofSealed
      .ok { order with reconstructed := true, verified := true }

end SealOrder

/-! ### Sequences of calls -/

/-- One call of a method, with what the owners answer to it. -/
inductive SealCall (Report Plan : Type) where
  | checkCustody
  | decode
  | reconstruct
  | checkCustodyWith (owners : SealOwners Report Plan) (profile : Profile) (ledgerBytes : List UInt8)
  | decodeWith (owners : SealOwners Report Plan) (payloads : List String)
  | reconstructWith (owners : SealOwners Report Plan) (report : Report) (plan : Plan)

namespace SealCall

/-- The result of the call: a refusal, or the seal it leaves. -/
def answer (order : SealOrder) : SealCall Report Plan → Except PreviewError SealOrder
  | checkCustody => order.checkCustody
  | decode => order.decode
  | reconstruct => order.reconstruct
  | checkCustodyWith owners profile ledgerBytes => order.checkCustodyWith owners profile ledgerBytes
  | decodeWith owners payloads => order.decodeWith owners payloads
  | reconstructWith owners report plan => order.reconstructWith owners report plan

/-- A refused call leaves the seal as it is. -/
def next (order : SealOrder) (call : SealCall Report Plan) : SealOrder :=
  match call.answer order with
  | .ok after => after
  | .error _ => order

def Succeeds (order : SealOrder) (call : SealCall Report Plan) : Prop := ∃ after, call.answer order = .ok after

/-- A call of `check_custody_with` that changes the held profile. -/
def Rebinds (order : SealOrder) (call : SealCall Report Plan) : Prop := (call.next order).profile ≠ order.profile

/-- A `decode_with` whose payloads decode to the held profile. -/
def Decodes (order : SealOrder) (call : SealCall Report Plan) : Prop :=
  ∃ owners payloads, call = decodeWith owners payloads ∧ call.Succeeds order

/-- A `reconstruct_with` that verifies a report of the held profile. -/
def Reconstructs (order : SealOrder) (call : SealCall Report Plan) : Prop :=
  ∃ owners report plan, call = reconstructWith owners report plan ∧ call.Succeeds order

end SealCall

/-- The seal after the calls. -/
def sealAfter (calls : List (SealCall Report Plan)) : SealOrder :=
  calls.foldl (fun order call => call.next order) .new

@[simp]
theorem sealAfter_snoc (calls : List (SealCall Report Plan)) (call : SealCall Report Plan) :
    sealAfter (calls ++ [call]) = call.next (sealAfter calls) := by
  simp [sealAfter]

/-- Since the held profile last changed, a `decode_with` has succeeded. -/
inductive ProfileDecoded : List (SealCall Report Plan) → Prop where
  | now {calls : List (SealCall Report Plan)} {call : SealCall Report Plan} (h : call.Decodes (sealAfter calls)) :
    ProfileDecoded (calls ++ [call])
  | later {calls : List (SealCall Report Plan)} {call : SealCall Report Plan} (h : ProfileDecoded calls)
    (hheld : ¬ call.Rebinds (sealAfter calls)) : ProfileDecoded (calls ++ [call])

/-- Since the held profile last changed, a `decode_with` has succeeded and after it a `reconstruct_with`. -/
inductive ChainProved : List (SealCall Report Plan) → Prop where
  | now {calls : List (SealCall Report Plan)} {call : SealCall Report Plan} (h : ProfileDecoded calls)
    (hcall : call.Reconstructs (sealAfter calls)) : ChainProved (calls ++ [call])
  | later {calls : List (SealCall Report Plan)} {call : SealCall Report Plan} (h : ChainProved calls)
    (hheld : ¬ call.Rebinds (sealAfter calls)) : ChainProved (calls ++ [call])

/-- The flag was set by the marker `decode`, and no `decode_with` and no new profile has come since. -/
inductive MarkerDecoded : List (SealCall Report Plan) → Prop where
  | now {calls : List (SealCall Report Plan)} (hcustody : (sealAfter calls).custody = true)
    (hopen : (sealAfter calls).decoded = false) : MarkerDecoded (calls ++ [.decode])
  | later {calls : List (SealCall Report Plan)} {call : SealCall Report Plan} (h : MarkerDecoded calls)
    (hheld : ¬ call.Rebinds (sealAfter calls)) (hcall : ¬ call.Decodes (sealAfter calls)) :
    MarkerDecoded (calls ++ [call])

/-- A report is verified for the held profile while only the marker vouches for its decode. -/
def Shortcut (calls : List (SealCall Report Plan)) : Prop :=
  ∃ front call back, calls = front ++ call :: back ∧ MarkerDecoded front ∧ call.Reconstructs (sealAfter front)

/-! ### What a call does to a seal -/

/-- The effects a call can have, with what it has checked. -/
inductive SealStep (order : SealOrder) (call : SealCall Report Plan) : SealOrder → Prop where
  | refused : SealStep order call order
  | held : SealStep order call { order with custody := true }
  | marked (hcall : call = .decode) (hcustody : order.custody = true) :
    SealStep order call { order with decoded := true }
  | rebuilt (hdecoded : order.decoded = true) : SealStep order call { order with reconstructed := true }
  | rebound (profile : Profile) (ledgerBytes : List UInt8) :
    SealStep order call (order.rebindCustody profile ledgerBytes)
  | decoded (hcall : call.Decodes order) : SealStep order call { order with decoded := true }
  | proved (hcall : call.Reconstructs order) (hcustody : order.custody = true) (hdecoded : order.decoded = true)
    (hprofile : order.profile ≠ none) : SealStep order call { order with reconstructed := true, verified := true }

theorem SealCall.next_eq {order after : SealOrder} {call : SealCall Report Plan} (h : call.answer order = .ok after) :
    call.next order = after := by
  simp [SealCall.next, h]

theorem SealCall.next_of_error {order : SealOrder} {call : SealCall Report Plan} {e : PreviewError}
    (h : call.answer order = .error e) : call.next order = order := by
  simp [SealCall.next, h]

theorem decodeWith_ok {order after : SealOrder} {owners : SealOwners Report Plan} {payloads : List String}
    (h : order.decodeWith owners payloads = .ok after) : after = { order with decoded := true } := by
  unfold SealOrder.decodeWith at h
  split at h
  · exact nomatch h
  · obtain ⟨decoded, -, h⟩ := Result.bind_eq_ok.1 h
    split at h
    · split at h
      · exact (Except.ok.inj h).symm
      · exact nomatch h
    · exact nomatch h

theorem reconstructWith_ok {order after : SealOrder} {owners : SealOwners Report Plan} {report : Report} {plan : Plan}
    (h : order.reconstructWith owners report plan = .ok after) :
    order.custody = true ∧ order.decoded = true ∧ order.profile ≠ none ∧
      after = { order with reconstructed := true, verified := true } := by
  unfold SealOrder.reconstructWith at h
  split at h
  · exact nomatch h
  · rename_i hflags
    have hcustody : order.custody = true := by
      by_contra hno
      simp [hno] at hflags
    have hdecoded : order.decoded = true := by
      by_contra hno
      simp [hno] at hflags
    split at h
    · exact nomatch h
    · rename_i profile hprofile
      obtain ⟨_, -, h⟩ := Result.bind_eq_ok.1 h
      exact ⟨hcustody, hdecoded, by simp [hprofile], (Except.ok.inj h).symm⟩

theorem SealCall.step (order : SealOrder) (call : SealCall Report Plan) : SealStep order call (call.next order) := by
  cases hanswer : call.answer order with
  | error e =>
    rw [SealCall.next_of_error hanswer]
    exact .refused
  | ok after =>
    rw [SealCall.next_eq hanswer]
    cases call with
    | checkCustody =>
      have hafter := Except.ok.inj hanswer
      rw [← hafter]
      exact .held
    | decode =>
      simp only [SealCall.answer, SealOrder.decode] at hanswer
      split at hanswer
      · exact nomatch hanswer
      · rename_i hcustody
        have hafter := Except.ok.inj hanswer
        rw [← hafter]
        exact .marked rfl (by simpa using hcustody)
    | reconstruct =>
      simp only [SealCall.answer, SealOrder.reconstruct] at hanswer
      split at hanswer
      · exact nomatch hanswer
      · rename_i hflags
        have hafter := Except.ok.inj hanswer
        rw [← hafter]
        simp only [Bool.or_eq_true, Bool.not_eq_true', not_or, Bool.not_eq_false] at hflags
        exact .rebuilt hflags.2
    | checkCustodyWith owners profile ledgerBytes =>
      obtain ⟨_, -, hafter⟩ := Result.bind_eq_ok.1 hanswer
      have hafter := Except.ok.inj hafter
      rw [← hafter]
      exact .rebound profile ledgerBytes
    | decodeWith owners payloads =>
      have hafter := decodeWith_ok hanswer
      rw [hafter]
      exact .decoded ⟨owners, payloads, rfl, after, hanswer⟩
    | reconstructWith owners report plan =>
      obtain ⟨hcustody, hdecoded, hprofile, hafter⟩ := reconstructWith_ok hanswer
      rw [hafter]
      exact .proved ⟨owners, report, plan, rfl, after, hanswer⟩ hcustody hdecoded hprofile

/-- A rebind to the held profile keeps every flag, one to another profile clears the proof. -/
theorem rebindCustody_cases (order : SealOrder) (profile : Profile) (ledgerBytes : List UInt8) :
    (order.profile = some profile ∧
        order.rebindCustody profile ledgerBytes = { order with custody := true, ledger := some ledgerBytes }) ∨
      ((order.rebindCustody profile ledgerBytes).profile ≠ order.profile ∧
        (order.rebindCustody profile ledgerBytes).decoded = false ∧
        (order.rebindCustody profile ledgerBytes).verified = false ∧
        (order.rebindCustody profile ledgerBytes).custody = true ∧
        (order.rebindCustody profile ledgerBytes).ledger.isSome) := by
  by_cases hsame : order.profile = some profile
  · left
    refine ⟨hsame, ?_⟩
    simp [SealOrder.rebindCustody, SealOrder.subjectChanged, hsame]
  · right
    refine ⟨?_, ?_, ?_, ?_, ?_⟩
    · intro hheld
      exact hsame hheld.symm
    · simp [SealOrder.rebindCustody, SealOrder.subjectChanged, hsame]
    · simp [SealOrder.rebindCustody, SealOrder.subjectChanged, hsame]
    · rfl
    · rfl

theorem reconstructs_next {order : SealOrder} {call : SealCall Report Plan} (h : call.Reconstructs order) :
    order.custody = true ∧ order.decoded = true ∧ order.profile ≠ none ∧
      call.next order = { order with reconstructed := true, verified := true } := by
  obtain ⟨owners, report, plan, rfl, after, hanswer⟩ := h
  obtain ⟨hcustody, hdecoded, hprofile, rfl⟩ := reconstructWith_ok hanswer
  exact ⟨hcustody, hdecoded, hprofile, SealCall.next_eq hanswer⟩

theorem decodes_next {order : SealOrder} {call : SealCall Report Plan} (h : call.Decodes order) :
    call.next order = { order with decoded := true } := by
  obtain ⟨owners, payloads, rfl, after, hanswer⟩ := h
  obtain rfl := decodeWith_ok hanswer
  exact SealCall.next_eq hanswer

/-! ### Seals that calls reach -/

/-- A verified seal has every flag, and a held profile its ledger and custody. -/
structure SealLaw (order : SealOrder) : Prop where
  held : order.profile ≠ none → order.custody = true ∧ order.ledger.isSome
  proved : order.verified = true → order.profile ≠ none ∧ order.decoded = true ∧ order.reconstructed = true

theorem SealLaw.step {order next : SealOrder} {call : SealCall Report Plan} (h : SealLaw order)
    (hstep : SealStep order call next) : SealLaw next := by
  cases hstep with
  | refused => exact h
  | held => exact ⟨fun hprofile => ⟨rfl, (h.held hprofile).2⟩, h.proved⟩
  | marked | decoded => exact ⟨h.held, fun hverified => ⟨(h.proved hverified).1, rfl, (h.proved hverified).2.2⟩⟩
  | rebuilt hdecoded => exact ⟨h.held, fun hverified => ⟨(h.proved hverified).1, hdecoded, rfl⟩⟩
  | proved hcall hcustody hdecoded hprofile => exact ⟨h.held, fun _ => ⟨hprofile, hdecoded, rfl⟩⟩
  | rebound profile ledgerBytes =>
    rcases rebindCustody_cases order profile ledgerBytes with ⟨hsame, hnext⟩ | ⟨-, -, hverified, hcustody, hledger⟩
    · rw [hnext]
      exact ⟨fun _ => ⟨rfl, rfl⟩, fun hverified => ⟨by simp [hsame], (h.proved hverified).2⟩⟩
    · refine ⟨fun _ => ⟨hcustody, hledger⟩, fun hyes => ?_⟩
      rw [hverified] at hyes
      exact nomatch hyes

theorem sealLaw_sealAfter (calls : List (SealCall Report Plan)) : SealLaw (sealAfter calls) := by
  induction calls using List.reverseRecOn with
  | nil => exact ⟨fun h => absurd rfl h, fun h => nomatch h⟩
  | append_singleton calls call ih =>
    rw [sealAfter_snoc]
    exact ih.step (call.step _)

/-- The other flags follow from `verified`. -/
theorem SealLaw.isVerified {order : SealOrder} (h : SealLaw order) : order.isVerified = order.verified := by
  cases hverified : order.verified with
  | false => simp [SealOrder.isVerified, hverified]
  | true =>
    obtain ⟨hprofile, hdecoded, hreconstructed⟩ := h.proved hverified
    obtain ⟨hcustody, hledger⟩ := h.held hprofile
    simp [SealOrder.isVerified, hverified, hdecoded, hreconstructed, hcustody, hledger]

/-! ### Who set the flag -/

theorem ProfileDecoded.decoded {calls : List (SealCall Report Plan)} (h : ProfileDecoded calls) :
    (sealAfter calls).decoded = true := by
  induction h with
  | now h =>
    rw [sealAfter_snoc, decodes_next h]
  | @later calls call h hheld ih =>
    rw [sealAfter_snoc]
    have hstep := call.step (sealAfter calls)
    unfold SealCall.Rebinds at hheld
    generalize call.next (sealAfter calls) = next at hstep hheld ⊢
    cases hstep with
    | refused | held | rebuilt | proved => exact ih
    | marked | decoded => rfl
    | rebound profile ledgerBytes =>
      rcases rebindCustody_cases (sealAfter calls) profile ledgerBytes with ⟨-, hnext⟩ | ⟨hmoved, -⟩
      · rw [hnext]
        exact ih
      · exact absurd hmoved hheld

theorem MarkerDecoded.not_profileDecoded {calls : List (SealCall Report Plan)} (h : MarkerDecoded calls) :
    ¬ ProfileDecoded calls := by
  induction h with
  | @now calls hcustody hopen =>
    intro hdecoded
    generalize hall : calls ++ [SealCall.decode] = all at hdecoded
    cases hdecoded with
    | now h =>
      obtain ⟨-, rfl⟩ := List.append_inj' hall rfl |>.imp_right fun h => (List.cons.inj h).1
      obtain ⟨owners, payloads, hcall, -⟩ := h
      exact nomatch hcall
    | later h =>
      obtain ⟨rfl, -⟩ := List.append_inj' hall rfl
      rw [h.decoded] at hopen
      exact nomatch hopen
  | @later calls call h hheld hcall ih =>
    intro hdecoded
    generalize hall : calls ++ [call] = all at hdecoded
    cases hdecoded with
    | now h =>
      obtain ⟨rfl, hsame⟩ := List.append_inj' hall rfl
      obtain rfl := (List.cons.inj hsame).1
      exact hcall h
    | later h =>
      obtain ⟨rfl, -⟩ := List.append_inj' hall rfl
      exact ih h

/-- A decode flag is the word of `decode_with` or of the marker. -/
theorem profileDecoded_or_markerDecoded (calls : List (SealCall Report Plan)) (h : (sealAfter calls).decoded = true) :
    ProfileDecoded calls ∨ MarkerDecoded calls := by
  induction calls using List.reverseRecOn with
  | nil => exact nomatch h
  | append_singleton calls call ih =>
    by_cases hdecodes : call.Decodes (sealAfter calls)
    · exact .inl (.now hdecodes)
    have hkept (hold : (sealAfter calls).decoded = true) (hheld : ¬ call.Rebinds (sealAfter calls)) :
        ProfileDecoded (calls ++ [call]) ∨ MarkerDecoded (calls ++ [call]) :=
      (ih hold).imp (fun h => h.later hheld) (fun h => h.later hheld hdecodes)
    rw [sealAfter_snoc] at h
    have hstep := call.step (sealAfter calls)
    unfold SealCall.Rebinds at hkept
    generalize hnext : call.next (sealAfter calls) = next at hstep h hkept
    cases hstep with
    | refused | held | rebuilt | proved => exact hkept h (by simp)
    | decoded hcall => exact absurd hcall hdecodes
    | marked hcall hcustody =>
      by_cases hopen : (sealAfter calls).decoded = true
      · exact hkept hopen (by simp)
      · subst hcall
        exact .inr (.now hcustody (by simpa using hopen))
    | rebound profile ledgerBytes =>
      rcases rebindCustody_cases (sealAfter calls) profile ledgerBytes with ⟨hsame, hrebound⟩ | ⟨-, hcleared, -⟩
      · rw [hrebound] at h hkept
        exact hkept h (by simp)
      · rw [hcleared] at h
        exact nomatch h

theorem ChainProved.profileDecoded {calls : List (SealCall Report Plan)} (h : ChainProved calls) :
    ProfileDecoded calls := by
  induction h with
  | now h hcall =>
    refine h.later ?_
    rw [SealCall.Rebinds, (reconstructs_next hcall).2.2.2]
    simp
  | later h hheld ih => exact ih.later hheld

/-! ### Verified exactly by the chain -/

theorem not_shortcut_front {front back : List (SealCall Report Plan)} (h : ¬ Shortcut (front ++ back)) :
    ¬ Shortcut front := by
  rintro ⟨a, call, b, rfl, hmarker, hcall⟩
  exact h ⟨a, call, b ++ back, by simp, hmarker, hcall⟩

/-- Without a shortcut, what verifies a seal is the chain of its owners. -/
theorem chainProved_of_verified (calls : List (SealCall Report Plan)) (hno : ¬ Shortcut calls)
    (h : (sealAfter calls).verified = true) : ChainProved calls := by
  induction calls using List.reverseRecOn with
  | nil => exact nomatch h
  | append_singleton calls call ih =>
    by_cases hproves : call.Reconstructs (sealAfter calls)
    · rcases profileDecoded_or_markerDecoded calls (reconstructs_next hproves).2.1 with hdecoded | hmarker
      · exact .now hdecoded hproves
      · exact absurd ⟨calls, call, [], rfl, hmarker, hproves⟩ hno
    have hkept (hold : (sealAfter calls).verified = true) (hheld : ¬ call.Rebinds (sealAfter calls)) :
        ChainProved (calls ++ [call]) := (ih (not_shortcut_front hno) hold).later hheld
    rw [sealAfter_snoc] at h
    have hstep := call.step (sealAfter calls)
    unfold SealCall.Rebinds at hkept
    generalize hnext : call.next (sealAfter calls) = next at hstep h hkept
    cases hstep with
    | refused | held | rebuilt | marked | decoded => exact hkept h (by simp)
    | proved hcall => exact absurd hcall hproves
    | rebound profile ledgerBytes =>
      rcases rebindCustody_cases (sealAfter calls) profile ledgerBytes with ⟨hsame, hrebound⟩ | ⟨-, -, hcleared, -⟩
      · rw [hrebound] at h hkept
        exact hkept h (by simp)
      · rw [hcleared] at h
        exact nomatch h

/-- In every state the calls reach, a verified seal has the whole chain. -/
def VerifiedByChain (calls : List (SealCall Report Plan)) : Prop :=
  ∀ front back, calls = front ++ back → (sealAfter front).isVerified = true → ChainProved front

theorem verifiedByChain_iff (calls : List (SealCall Report Plan)) : VerifiedByChain calls ↔ ¬ Shortcut calls := by
  constructor
  · rintro hchain ⟨front, call, back, rfl, hmarker, hcall⟩
    obtain ⟨-, -, -, hnext⟩ := reconstructs_next hcall
    have hverified : (sealAfter (front ++ [call])).isVerified = true := by
      rw [(sealLaw_sealAfter _).isVerified, sealAfter_snoc, hnext]
    have hproved := hchain (front ++ [call]) back (by simp) hverified
    -- the marker still stands after the call, so no `decode_with` does
    have hstill : MarkerDecoded (front ++ [call]) := by
      refine hmarker.later ?_ ?_
      · rw [SealCall.Rebinds, hnext]
        simp
      · rintro ⟨owners, payloads, rfl, -⟩
        obtain ⟨_, _, _, hother, -⟩ := hcall
        exact nomatch hother
    exact hstill.not_profileDecoded hproved.profileDecoded
  · rintro hno front back rfl hverified
    rw [(sealLaw_sealAfter _).isVerified] at hverified
    exact chainProved_of_verified front (not_shortcut_front hno) hverified

/-! ### A verified seal without a decode -/

/-- A profile whose report has no facts: the digest is that of no bytes. -/
def capturedProfile : Profile where
  bytes := "18:verdant-f02-s03-v1"
  ledgerDigest := "e3b0c44298fc1c149afbf4c8996fb92427ae41e4649b934ca495991b7852b855"

/-- The owners as they answer for that profile: they know its ledger and its report, and no payload was given. -/
def capturedOwners : SealOwners Unit Unit where
  ledgerStatus := fun profile ledgerBytes =>
    if profile = capturedProfile ∧ ledgerBytes = [] then .ok () else .error .ledgerDigestMismatch
  fromPayloads := fun _ => .error ⟨"s03-limit", "Limit"⟩
  verifyReport := fun profile _ _ => if profile = capturedProfile then .ok () else .error .ledgerDigestMismatch

def markerCalls : List (SealCall Unit Unit) :=
  [.checkCustodyWith capturedOwners capturedProfile [], .decode, .reconstructWith capturedOwners () ()]

theorem verified_without_decode : ¬ VerifiedByChain markerCalls := by
  intro h
  have hverified : (sealAfter markerCalls).isVerified = true := by decide
  have hdecoded := (h markerCalls [] rfl hverified).profileDecoded
  have hcustody : (sealAfter [.checkCustodyWith capturedOwners capturedProfile []]).custody = true := by decide
  have hopen : (sealAfter [.checkCustodyWith capturedOwners capturedProfile []]).decoded = false := by decide
  have hmarker : MarkerDecoded markerCalls := by
    refine @MarkerDecoded.later _ _ _ (.reconstructWith capturedOwners () ()) (.now hcustody hopen) ?_ ?_
    · rw [SealCall.Rebinds]
      decide
    · rintro ⟨_, _, hother, -⟩
      exact nomatch hother
  exact hmarker.not_profileDecoded hdecoded

end Verdant.Action
