import ConclaveFormal.Enclave.PostOffices
import ConclaveFormal.Lib.Transition
import Mathlib.Data.Multiset.UnionInter
import Mathlib.Data.Nat.ModEq

/-!
# The count of pending mail

While a receive runs, the enclave counts the mail that has been created and not been posted.  The
count goes up where the private header of session mail is read, and down wherever bytes are posted.
Mail of a KDS post office has no private header, and session mail may fail after its header has been
read, so the count is right only as far as these two make up for each other.  It is an `Int`, and
wraps around.
-/

set_option autoImplicit false

namespace Conclave.Enclave

open Conclave.Lib Conclave.Mail

inductive Origin where
  | session
  | kds
  deriving DecidableEq, Repr

inductive LedgerEntry where
  | created (origin : Origin) (mail : Bytes)
  | failed (origin : Origin)
  | posted (mail : Bytes) (routingHint : Option JString)
  deriving DecidableEq, Repr

namespace LedgerEntry

def isCreatedBy (origin : Origin) : LedgerEntry → Bool
  | created maker _ => maker == origin
  | failed _ => false
  | posted _ _ => false

def isFailureOf (origin : Origin) : LedgerEntry → Bool
  | created _ _ => false
  | failed maker => maker == origin
  | posted _ _ => false

def createdMail : LedgerEntry → Option Bytes
  | created _ mail => some mail
  | failed _ => none
  | posted _ _ => none

def postedMail : LedgerEntry → Option Bytes
  | created _ _ => none
  | failed _ => none
  | posted mail _ => some mail

/-- Mail that could not be made has been counted, if it was session mail. -/
def ofEncryptMail (origin : Origin) : Option Bytes → LedgerEntry
  | none => failed origin
  | some mail => created origin mail

end LedgerEntry

namespace Ledger

def created (ledger : List LedgerEntry) : List Bytes := ledger.filterMap LedgerEntry.createdMail

def posted (ledger : List LedgerEntry) : List Bytes := ledger.filterMap LedgerEntry.postedMail

def createdBy (origin : Origin) (ledger : List LedgerEntry) : Nat :=
  ledger.countP (LedgerEntry.isCreatedBy origin)

def failuresOf (origin : Origin) (ledger : List LedgerEntry) : Nat :=
  ledger.countP (LedgerEntry.isFailureOf origin)

/-- Each created mail is posted exactly once, and nothing else is. -/
def PostedOnce (ledger : List LedgerEntry) : Prop := (created ledger).Perm (posted ledger)

def AllPosted (ledger : List LedgerEntry) : Prop := (created ledger).Subperm (posted ledger)

/-- The number of mails that were created and not posted. -/
def leftOver (ledger : List LedgerEntry) : Nat :=
  Multiset.card ((created ledger : Multiset Bytes) - (posted ledger : Multiset Bytes))

/-- The number of posts of other bytes, or of a mail that had been posted. -/
def surplus (ledger : List LedgerEntry) : Nat :=
  Multiset.card ((posted ledger : Multiset Bytes) - (created ledger : Multiset Bytes))

/-- Where each mail is posted once, KDS mail is created as often as session mail fails; and mail
that is left over and session mail that failed are not made up for by KDS mail and by surplus posts.
The counter does not see differences of `2 ^ 32`. -/
structure Balanced (ledger : List LedgerEntry) : Prop where
  once : PostedOnce ledger → createdBy .kds ledger ≡ failuresOf .session ledger [MOD 2 ^ 32]
  madeUp : ¬ AllPosted ledger →
    ¬ leftOver ledger + failuresOf .session ledger ≡
      createdBy .kds ledger + surplus ledger [MOD 2 ^ 32]

/-- No KDS mail is created, no session mail fails, no foreign bytes and no mail for a second time
are posted, and the session mail is fewer than the counter counts. -/
structure Ordinary (ledger : List LedgerEntry) : Prop where
  kds : createdBy .kds ledger = 0
  failures : failuresOf .session ledger = 0
  posted : (posted ledger).Subperm (created ledger)
  few : createdBy .session ledger < 2 ^ 32

/-- The count that the ledger accounts for. -/
def pending (ledger : List LedgerEntry) : Int :=
  createdBy .session ledger + failuresOf .session ledger - (posted ledger).length

section Entries

variable (origin : Origin) (mail : Bytes) (routingHint : Option JString)
  (ledger : List LedgerEntry)

@[simp] theorem created_created :
    created (.created origin mail :: ledger) = mail :: created ledger :=
  rfl

@[simp] theorem created_failed : created (.failed origin :: ledger) = created ledger := rfl

@[simp] theorem created_posted :
    created (.posted mail routingHint :: ledger) = created ledger := rfl

@[simp] theorem posted_created : posted (.created origin mail :: ledger) = posted ledger := rfl

@[simp] theorem posted_failed : posted (.failed origin :: ledger) = posted ledger := rfl

@[simp] theorem posted_posted :
    posted (.posted mail routingHint :: ledger) = mail :: posted ledger := rfl

@[simp] theorem createdBy_cons (maker : Origin) (entry : LedgerEntry) :
    createdBy maker (entry :: ledger) =
      createdBy maker ledger + if entry.isCreatedBy maker then 1 else 0 :=
  List.countP_cons

@[simp] theorem failuresOf_cons (of : Origin) (entry : LedgerEntry) :
    failuresOf of (entry :: ledger) =
      failuresOf of ledger + if entry.isFailureOf of then 1 else 0 :=
  List.countP_cons

end Entries

theorem length_created (ledger : List LedgerEntry) :
    (created ledger).length = createdBy .session ledger + createdBy .kds ledger := by
  induction ledger with
  | nil => rfl
  | cons entry rest ih =>
      cases entry with
      | created origin mail =>
          rw [created_created, List.length_cons, ih, createdBy_cons, createdBy_cons]
          cases origin with
          | session => exact Nat.add_right_comm _ _ _
          | kds => rfl
      | failed origin => exact ih
      | posted mail routingHint => exact ih

theorem pending_ofEncryptMail_session (produced : Option Bytes) (ledger : List LedgerEntry) :
    pending (LedgerEntry.ofEncryptMail .session produced :: ledger) = pending ledger + 1 := by
  cases produced with
  | none =>
      simp only [pending, LedgerEntry.ofEncryptMail, createdBy_cons, failuresOf_cons, posted_failed,
        LedgerEntry.isCreatedBy, LedgerEntry.isFailureOf]
      simp
      omega
  | some mail =>
      simp only [pending, LedgerEntry.ofEncryptMail, createdBy_cons, failuresOf_cons,
        posted_created, LedgerEntry.isCreatedBy, LedgerEntry.isFailureOf]
      simp
      omega

theorem pending_ofEncryptMail_kds (produced : Option Bytes) (ledger : List LedgerEntry) :
    pending (LedgerEntry.ofEncryptMail .kds produced :: ledger) = pending ledger := by
  cases produced with
  | none => rfl
  | some mail => rfl

theorem pending_posted (mail : Bytes) (routingHint : Option JString) (ledger : List LedgerEntry) :
    pending (.posted mail routingHint :: ledger) = pending ledger - 1 := by
  have created : createdBy .session (.posted mail routingHint :: ledger) =
      createdBy .session ledger := rfl
  have failed : failuresOf .session (.posted mail routingHint :: ledger) =
      failuresOf .session ledger := rfl
  rw [pending, pending, created, failed, posted_posted, List.length_cons]
  omega

theorem card_sub_eq_zero_iff (first second : List Bytes) :
    Multiset.card ((first : Multiset Bytes) - (second : Multiset Bytes)) = 0 ↔
      first.Subperm second := by
  rw [Multiset.card_eq_zero, ← Multiset.le_zero, Multiset.sub_le_iff_le_add, Multiset.zero_add]
  exact Multiset.coe_le

theorem length_add_surplus (ledger : List LedgerEntry) :
    (created ledger).length + surplus ledger = (posted ledger).length + leftOver ledger := by
  have union := congrArg Multiset.card
    (Multiset.union_comm (created ledger : Multiset Bytes) (posted ledger : Multiset Bytes))
  rw [Multiset.union_def, Multiset.union_def, Multiset.card_add, Multiset.card_add,
    Multiset.coe_card, Multiset.coe_card] at union
  unfold surplus leftOver
  omega

/-- The count tells left over mail and failures from KDS mail and surplus posts, up to `2 ^ 32`. -/
theorem pending_dvd_iff (ledger : List LedgerEntry) :
    (2 : Int) ^ 32 ∣ pending ledger ↔
      leftOver ledger + failuresOf .session ledger ≡
        createdBy .kds ledger + surplus ledger [MOD 2 ^ 32] := by
  have created := length_created ledger
  have lengths := length_add_surplus ledger
  unfold pending Nat.ModEq
  omega

/-- The counter tells whether each mail was posted exactly if the ledger balances. -/
theorem balanced_iff (ledger : List LedgerEntry) :
    Balanced ledger ↔
      (PostedOnce ledger → wrap32 (pending ledger) = 0) ∧
        (¬ AllPosted ledger → wrap32 (pending ledger) ≠ 0) := by
  have once : PostedOnce ledger →
      (createdBy .kds ledger ≡ failuresOf .session ledger [MOD 2 ^ 32] ↔
        wrap32 (pending ledger) = 0) := by
    intro postedOnce
    have all := (card_sub_eq_zero_iff _ _).mpr postedOnce.subperm
    have only := (card_sub_eq_zero_iff _ _).mpr postedOnce.symm.subperm
    rw [wrap32_eq_zero_iff, pending_dvd_iff, leftOver, surplus, all, only, Nat.zero_add,
      Nat.add_zero]
    exact Nat.ModEq.comm
  constructor
  · rintro ⟨balances, madeUp⟩
    refine ⟨fun postedOnce => (once postedOnce).mp (balances postedOnce), ?_⟩
    intro notAll zero
    exact madeUp notAll ((pending_dvd_iff ledger).mp (wrap32_eq_zero_iff.mp zero))
  · rintro ⟨zero, nonzero⟩
    refine ⟨fun postedOnce => (once postedOnce).mpr (zero postedOnce), ?_⟩
    intro notAll madeUp
    exact nonzero notAll (wrap32_eq_zero_iff.mpr ((pending_dvd_iff ledger).mpr madeUp))

theorem Ordinary.balanced {ledger : List LedgerEntry} (ordinary : Ordinary ledger) :
    Balanced ledger := by
  obtain ⟨kds, failures, only, few⟩ := ordinary
  refine ⟨fun _ => by rw [kds, failures], ?_⟩
  intro notAll madeUp
  have some : leftOver ledger ≠ 0 := fun none => notAll ((card_sub_eq_zero_iff _ _).mp none)
  have surplus : surplus ledger = 0 := (card_sub_eq_zero_iff _ _).mpr only
  have created := length_created ledger
  have lengths := length_add_surplus ledger
  rw [kds, failures, surplus] at madeUp
  unfold Nat.ModEq at madeUp
  omega

end Ledger

variable {env : PostOfficeEnvironment}

/-! ## One receive -/

variable (env) in
/-- What the user's code does with mail.  The host may throw at a mail that is posted. -/
inductive MailAction where
  | postOffice (destinationPublicKey : env.N.PublicKey) (topic : JString)
      (keyDerivation : Option Bytes)
  | postOfficeOfMail (mail : DecryptedEnclaveMail env.N)
  | encryptMail (office : EnclavePostOffice env) (ephemeral : env.N.Ephemeral)
      (minSize : Option Int) (body : Bytes) (envelope : Option Bytes)
  | postMail (encryptedMail : Bytes) (routingHint : Option JString) (hostThrows : Bool)
  | setPersistentMap (map : AssocMap JString Bytes)

variable (env) in
structure Receiving where
  mailing : Mailing env
  ledger : List LedgerEntry

namespace EnclavePostOffice

def origin : EnclavePostOffice env → Origin
  | session _ => .session
  | kds _ => .kds

end EnclavePostOffice

namespace Receiving

def withOffice (receiving : Receiving env) :
    Except TopicError (EnclavePostOffice env × Mailing env) → Receiving env
  | .error _ => receiving
  | .ok (_, mailing) => { receiving with mailing := mailing }

def step (receiving : Receiving env) : MailAction env → Option (Receiving env)
  | .postOffice destinationPublicKey topic keyDerivation =>
      some (receiving.withOffice
        (receiving.mailing.getCachedPostOffice destinationPublicKey topic keyDerivation))
  | .postOfficeOfMail mail =>
      some (receiving.withOffice (receiving.mailing.postOfficeOfMail mail))
  | .encryptMail office ephemeral minSize body envelope =>
      (receiving.mailing.encryptMail office ephemeral minSize body envelope).map
        fun (produced, mailing) =>
          ⟨mailing, LedgerEntry.ofEncryptMail office.origin produced :: receiving.ledger⟩
  | .postMail encryptedMail routingHint hostThrows =>
      if hostThrows then some receiving
      else some
        ⟨{ receiving.mailing with enclave := receiving.mailing.enclave.postMail },
          .posted encryptedMail routingHint :: receiving.ledger⟩
  | .setPersistentMap map =>
      some { receiving with
        mailing := { receiving.mailing with
          enclave := receiving.mailing.enclave.setPersistentMap map } }

end Receiving

variable (env) in
/-- A receive that has come to the check, with the mail of the invocation. -/
structure Executed where
  ledger : List LedgerEntry
  pendingPostMails : Int
  result : Except ReceiveError Bytes
  mailing : Mailing env

/-- `executeReceive` around a `receiveMethod` that returns.  `none` is a receive inside another. -/
def executeReceive (mailing : Mailing env) (stateId : EnclaveStateId)
    (receiveMethod : List (MailAction env)) (maxPersistentMapSize : Int) (now : Instant)
    (sealDataThrows : Bool) : Option (Executed env) := do
  let enclave ← mailing.enclave.beginReceive stateId
  let receiving ← run Receiving.step ⟨{ mailing with enclave := enclave }, []⟩ receiveMethod
  let receiveContext ← receiving.mailing.enclave.currentReceiveContext
  let ended := receiving.mailing.enclave.endReceive receiveContext maxPersistentMapSize
    (.returned now sealDataThrows)
  some ⟨receiving.ledger, receiveContext.pendingPostMails, ended.1,
    ⟨ended.2, receiving.mailing.postOffices⟩⟩

/-- `check(receiveContext.pendingPostMails == 0)` passes: what follows may still throw. -/
def Executed.Passes (executed : Executed env) : Prop :=
  executed.result ≠ .error .pendingPostMails

/-! ## The count -/

def Counts (receiving : Receiving env) : Prop :=
  ∃ receiveContext, receiving.mailing.enclave.currentReceiveContext = some receiveContext ∧
    receiveContext.pendingPostMails = wrap32 (Ledger.pending receiving.ledger)

theorem Counts.withOffice {receiving : Receiving env} (counts : Counts receiving)
    {made : Except TopicError (EnclavePostOffice env × Mailing env)}
    (same : ∀ office mailing, made = .ok (office, mailing) →
      mailing.enclave = receiving.mailing.enclave) : Counts (receiving.withOffice made) := by
  cases made with
  | error e => exact counts
  | ok pair =>
      obtain ⟨receiveContext, receives, counted⟩ := counts
      exact ⟨receiveContext, (same pair.1 pair.2 rfl) ▸ receives, counted⟩

theorem Counts.encryptMail {receiving : Receiving env} (counts : Counts receiving)
    {office : EnclavePostOffice env} {ephemeral : env.N.Ephemeral} {minSize : Option Int}
    {body : Bytes} {envelope produced : Option Bytes} {mailing : Mailing env}
    (ran : receiving.mailing.encryptMail office ephemeral minSize body envelope =
      some (produced, mailing)) :
    Counts ⟨mailing, LedgerEntry.ofEncryptMail office.origin produced :: receiving.ledger⟩ := by
  obtain ⟨receiveContext, receives, counted⟩ := counts
  cases office with
  | session place =>
      obtain ⟨outboundClients, next⟩ := Mailing.encryptMail_session receives ran
      refine ⟨_, next, ?_⟩
      rw [EnclavePostOffice.origin, Ledger.pending_ofEncryptMail_session, counted,
        wrap32_wrap32_add]
  | kds office =>
      rw [Mailing.encryptMail_kds ran]
      refine ⟨receiveContext, receives, ?_⟩
      rw [EnclavePostOffice.origin, Ledger.pending_ofEncryptMail_kds, ← counted]

theorem Counts.postMail {receiving : Receiving env} (counts : Counts receiving)
    (encryptedMail : Bytes) (routingHint : Option JString) :
    Counts ⟨{ receiving.mailing with enclave := receiving.mailing.enclave.postMail },
      .posted encryptedMail routingHint :: receiving.ledger⟩ := by
  obtain ⟨receiveContext, receives, counted⟩ := counts
  refine ⟨{ receiveContext with
    pendingPostMails := wrap32 (receiveContext.pendingPostMails - 1) }, ?_, ?_⟩
  · simp only [EnclaveInstance.postMail, receives, Option.map_some]
  · rw [Ledger.pending_posted, Int.sub_eq_add_neg, Int.sub_eq_add_neg, counted,
      wrap32_wrap32_add]

theorem Counts.step {receiving next : Receiving env} {action : MailAction env}
    (counts : Counts receiving) (stepped : receiving.step action = some next) : Counts next := by
  cases action with
  | postOffice destinationPublicKey topic keyDerivation =>
      cases stepped
      exact counts.withOffice fun _ _ ok => Mailing.getCachedPostOffice_enclave ok
  | postOfficeOfMail mail =>
      cases stepped
      exact counts.withOffice fun _ _ ok => Mailing.postOfficeOfMail_enclave ok
  | encryptMail office ephemeral minSize body envelope =>
      obtain ⟨⟨produced, mailing⟩, ran, made⟩ := Option.map_eq_some_iff.mp stepped
      cases made
      exact counts.encryptMail ran
  | postMail encryptedMail routingHint hostThrows =>
      cases hostThrows with
      | true =>
          cases stepped
          exact counts
      | false =>
          cases stepped
          exact counts.postMail encryptedMail routingHint
  | setPersistentMap map =>
      cases stepped
      exact counts

theorem counts_begin {mailing : Mailing env} {enclave : EnclaveInstance} {stateId : EnclaveStateId}
    (began : mailing.enclave.beginReceive stateId = some enclave) :
    Counts ⟨{ mailing with enclave := enclave }, []⟩ := by
  obtain ⟨_, begun⟩ := EnclaveInstance.beginReceive_eq_some began
  rw [begun]
  have zero : Ledger.pending [] = 0 := rfl
  refine ⟨ReceiveContext.new stateId, rfl, ?_⟩
  rw [zero, wrap32_eq_zero_iff.mpr (Int.dvd_zero _)]
  rfl

/-- The check is of the count, and nothing else in the end of a receive looks like it. -/
theorem endReceive_pendingPostMails_iff (enclave : EnclaveInstance)
    (receiveContext : ReceiveContext) (maxPersistentMapSize : Int) (now : Instant)
    (sealDataThrows : Bool) :
    (enclave.endReceive receiveContext maxPersistentMapSize (.returned now sealDataThrows)).1 =
        .error .pendingPostMails ↔ receiveContext.pendingPostMails ≠ 0 := by
  by_cases zero : receiveContext.pendingPostMails = 0
  · simp only [EnclaveInstance.endReceive, zero, if_true, ne_eq, not_true_eq_false, iff_false]
    intro refused
    split at refused
    · cases refused
    · cases refused
  · simp only [EnclaveInstance.endReceive, zero, if_false, ne_eq, not_false_eq_true]

theorem executeReceive_counts {mailing : Mailing env} {stateId : EnclaveStateId}
    {receiveMethod : List (MailAction env)} {maxPersistentMapSize : Int} {now : Instant}
    {sealDataThrows : Bool} {executed : Executed env}
    (ran : executeReceive mailing stateId receiveMethod maxPersistentMapSize now sealDataThrows =
      some executed) :
    executed.pendingPostMails = wrap32 (Ledger.pending executed.ledger) ∧
      (executed.Passes ↔ executed.pendingPostMails = 0) := by
  obtain ⟨enclave, began, ran⟩ := Option.bind_eq_some_iff.mp ran
  obtain ⟨receiving, method, ran⟩ := Option.bind_eq_some_iff.mp ran
  obtain ⟨receiveContext, receives, ran⟩ := Option.bind_eq_some_iff.mp ran
  rw [← Option.some.inj ran]
  obtain ⟨same, receivesSame, counted⟩ := run_invariant Counts.step (counts_begin began) method
  rw [receives] at receivesSame
  cases receivesSame
  have refused := endReceive_pendingPostMails_iff receiving.mailing.enclave receiveContext
    maxPersistentMapSize now sealDataThrows
  exact ⟨counted, (not_congr refused).trans not_not⟩

/-- What the count is for. -/
structure Accounted (executed : Executed env) : Prop where
  passes : Ledger.PostedOnce executed.ledger → executed.pendingPostMails = 0 ∧ executed.Passes
  fails : ¬ Ledger.AllPosted executed.ledger → ¬ executed.Passes

/-- The count is what it is for exactly if the ledger balances, as it does in an ordinary
receive. -/
theorem pendingPostMails_accounted_iff {mailing : Mailing env} {stateId : EnclaveStateId}
    {receiveMethod : List (MailAction env)} {maxPersistentMapSize : Int} {now : Instant}
    {sealDataThrows : Bool} {executed : Executed env}
    (ran : executeReceive mailing stateId receiveMethod maxPersistentMapSize now sealDataThrows =
      some executed) :
    (Accounted executed ↔ Ledger.Balanced executed.ledger) ∧
      (Ledger.Ordinary executed.ledger → Accounted executed) := by
  obtain ⟨counted, passes⟩ := executeReceive_counts ran
  have exact : Accounted executed ↔ Ledger.Balanced executed.ledger := by
    rw [Ledger.balanced_iff, ← counted]
    constructor
    · rintro ⟨once, unposted⟩
      refine ⟨fun postedOnce => (once postedOnce).1, ?_⟩
      exact fun notAll zero => unposted notAll (passes.mpr zero)
    · rintro ⟨once, unposted⟩
      refine ⟨fun postedOnce => ?_, fun notAll passed => unposted notAll (passes.mp passed)⟩
      have zero := once postedOnce
      exact ⟨zero, passes.mpr zero⟩
  exact ⟨exact, fun ordinary => exact.mpr ordinary.balanced⟩

/-! ## Two receives -/

theorem zeroKey_size : (List.replicate 32 (0 : UInt8)).length = 32 := List.length_replicate

def zeroKey : Curve25519PublicKey := ⟨List.replicate 32 0, zeroKey_size⟩

theorem zeroStateId_size : (List.replicate 16 (0 : UInt8)).length = 16 := List.length_replicate

def zeroStateId : EnclaveStateId := ⟨List.replicate 16 0, zeroStateId_size⟩

def openPostOffices : PostOfficeEnvironment where
  N := openNoise
  encoded _ := zeroKey
  encryptionPrivateKey := ((2, none) : UInt8 × Option Bytes)
  isLetterOrDigit char := char == 116
  isWhitespace char := char == 32
  maxArrayLength := 1000

def sessionMail : Bytes :=
  (@AbstractPostOffice.encryptMail openPostOffices (1 : UInt8)
    ((2, none) : UInt8 × Option Bytes) ⟨0, [116], none, none⟩ () (some 0) [7]
    (some (StateIdHeader.write ⟨zeroStateId, none⟩))).getD []

def kdsMail : Bytes :=
  (@AbstractPostOffice.encryptMail openPostOffices (1 : UInt8)
    ((3, none) : UInt8 × Option Bytes) ⟨0, [116], none, none⟩ () (some 0) [7] none).getD []

def kdsRequest : DecryptedEnclaveMail openNoise :=
  ⟨0, [116], (1 : UInt8), none, none, [], some ((3, none) : UInt8 × Option Bytes)⟩

def sessionReply : List (MailAction openPostOffices) :=
  [.postOffice (1 : UInt8) [116] none,
    .encryptMail (.session (zeroKey, [116])) () (some 0) [7] none,
    .postMail sessionMail none false]

def kdsReply : List (MailAction openPostOffices) :=
  [.postOfficeOfMail kdsRequest,
    .encryptMail (.kds ⟨(1 : UInt8), [116], ((3, none) : UInt8 × Option Bytes)⟩) () (some 0) [7]
      none,
    .postMail kdsMail none false]

def idleMailing : Mailing openPostOffices := ⟨EnclaveInstance.new, ∅⟩

theorem sessionReply_ledger :
    (executeReceive idleMailing zeroStateId sessionReply 100 .EPOCH false).map Executed.ledger =
      some [.posted sessionMail none, .created .session sessionMail] := by
  decide +kernel

theorem kdsReply_ledger :
    (executeReceive idleMailing zeroStateId kdsReply 100 .EPOCH false).map Executed.ledger =
      some [.posted kdsMail none, .created .kds kdsMail] := by
  decide +kernel

theorem sessionReply_accounted :
    ∃ executed,
      executeReceive idleMailing zeroStateId sessionReply 100 .EPOCH false = some executed ∧
        Ledger.PostedOnce executed.ledger ∧ Accounted executed := by
  obtain ⟨executed, ran, ledger⟩ := Option.map_eq_some_iff.mp sessionReply_ledger
  have once : Ledger.PostedOnce executed.ledger := by
    rw [ledger]
    exact List.Perm.refl _
  have created : Ledger.createdBy .session executed.ledger = 1 := by
    rw [ledger]
    rfl
  have ordinary : Ledger.Ordinary executed.ledger :=
    ⟨by rw [ledger]; rfl, by rw [ledger]; rfl, once.symm.subperm, by rw [created]; norm_num⟩
  exact ⟨executed, ran, once, (pendingPostMails_accounted_iff ran).2 ordinary⟩

/-- The reply to a mail under a KDS key is created and posted, and the check fails. -/
theorem kdsReply_not_accounted :
    ∃ executed, executeReceive idleMailing zeroStateId kdsReply 100 .EPOCH false = some executed ∧
      Ledger.PostedOnce executed.ledger ∧ executed.pendingPostMails = -1 ∧
      ¬ Accounted executed := by
  obtain ⟨executed, ran, ledger⟩ := Option.map_eq_some_iff.mp kdsReply_ledger
  have once : Ledger.PostedOnce executed.ledger := by
    rw [ledger]
    exact List.Perm.refl _
  have count : executed.pendingPostMails = -1 := by
    rw [(executeReceive_counts ran).1, ledger]
    rfl
  refine ⟨executed, ran, once, count, ?_⟩
  intro accounted
  have zero := (accounted.passes once).1
  rw [count] at zero
  cases zero

end Conclave.Enclave
