import Lobu.Configuration.Ownership
import Lobu.Foundation.Table

namespace Lobu.Configuration

open Lobu.Foundation

/-! # The order of releases

The release of an agent's receipt goes back only by a rollback that the receipt's own
manifest has authorized, and the feeds of a channel only go forward.
-/

variable {Digest : Type} [DecidableEq Digest]

def receiptOf (rows : Rows Digest) : Option (ReceiptRow Digest) := rows.bind AgentRecord.receipt

def cursorsOf (rows : Rows Digest) : List (FeedCursorRow Digest) :=
  (rows.map AgentRecord.cursors).getD []

def cursorOf (environment : ReleaseEnvironment) (channel : ReleaseChannel) (rows : Rows Digest) :
    Option (FeedCursorRow Digest) :=
  (cursorsOf rows).find? (cursorFor environment channel)

section Checks

variable {service : ReleaseService Digest} {command : ApplyCommand Digest}
variable {prepared : PreparedApply Digest} {row : ReceiptRow Digest} {now : Int}

/-- The publication of a release and, where it is a rollback, what has been checked of it. -/
structure Published (service : ReleaseService Digest) (command : ApplyCommand Digest) (now : Int)
    (publication : FeedPublication Digest) : Prop where
  member : publication ∈ command.signedFeed.publications
  digest : publication.manifestDigest = digestValue service command.signedManifest.document
  rollback : ∀ rollback ∈ publication.rollback,
    rollback.toReleaseSequence = command.signedManifest.releaseSequence ∧
      rollback.toReleaseId = command.signedManifest.releaseId ∧ now < rollback.expiresAt

theorem validatePublication_ok {publication : FeedPublication Digest}
    (given : validatePublication service command now = .ok publication) :
    Published service command now publication := by
  unfold validatePublication at given
  simp only at given
  split at given
  · rename_i found matching
    have member : found ∈ command.signedFeed.publications.filter fun publication =>
        publication.releaseId == command.signedManifest.releaseId &&
          publication.releaseSequence == command.signedManifest.releaseSequence := by
      rw [matching]
      exact List.mem_singleton_self found
    split at given
    · contradiction
    · split at given
      · contradiction
      · rename_i digest
        have published := (List.mem_filter.mp member).1
        split at given
        · rename_i ordinary
          cases given
          refine ⟨published, not_not.mp digest, ?_⟩
          intro rollback present
          rw [ordinary] at present
          contradiction
        · rename_i rollback present
          split at given
          · contradiction
          · rename_i target
            split at given
            · contradiction
            · rename_i unexpired
              cases given
              refine ⟨published, not_not.mp digest, ?_⟩
              intro other same
              rw [present] at same
              cases same
              simp only [not_or, not_not] at target
              exact ⟨target.1, target.2, by omega⟩
  · split at given <;> contradiction

omit [DecidableEq Digest] in
/-- A release that is older than the receipt's comes in by a rollback that the receipt
allows. -/
theorem checkPublicationOrder_older (order : checkPublicationOrder prepared (some row) = .ok ())
    (older : prepared.command.signedManifest.releaseSequence < row.appliedReleaseSequence) :
    ∃ rollback, prepared.publication.rollback = some rollback ∧
      rollback.fromReleaseSequence = row.appliedReleaseSequence ∧
      rollback.fromReleaseSequence = row.desiredReleaseSequence ∧
      row.rollbackToReleaseId = some rollback.toReleaseId ∧
      row.rollbackToSequence = some rollback.toReleaseSequence := by
  unfold checkPublicationOrder at order
  have picked : (some row).filter (fun row =>
      prepared.command.signedManifest.releaseSequence < row.appliedReleaseSequence) =
        some row := by
    simp [Option.filter, older]
  simp only [picked] at order
  cases rollback : prepared.publication.rollback with
  | none => simp [rollback] at order
  | some target =>
    refine ⟨target, rfl, ?_⟩
    simp only [rollback] at order
    split at order
    · contradiction
    · rename_i source
      split at order
      · contradiction
      · split at order
        · contradiction
        · rename_i authorized
          simp only [not_or, not_not] at source authorized
          exact ⟨source.1, source.2, authorized.1.symm, authorized.2.symm⟩

theorem checkFeedOrder_ok {cursor : Option (FeedCursorRow Digest)} (order : checkFeedOrder prepared cursor = .ok ()) :
    ∀ row ∈ cursor, row.highestFeedSequence < prepared.command.signedFeed.feedSequence ∨
      row.highestFeedSequence = prepared.command.signedFeed.feedSequence ∧
        row.highestFeedDigest = prepared.feedDigest := by
  intro row held
  rw [Option.mem_def.mp held] at order
  unfold checkFeedOrder at order
  simp only [Option.any_some, decide_eq_true_eq] at order
  split at order
  · contradiction
  · rename_i ahead
    split at order
    · contradiction
    · rename_i level
      by_cases same : prepared.command.signedFeed.feedSequence = row.highestFeedSequence
      · right
        refine ⟨same.symm, ?_⟩
        simpa [same] using level
      · left
        omega

end Checks

section Cursors

variable {prepared : PreparedApply Digest} {record : AgentRecord Digest}
variable {environment : ReleaseEnvironment} {channel : ReleaseChannel}

omit [DecidableEq Digest] in
theorem cursorFor_iff {row : FeedCursorRow Digest} :
    cursorFor environment channel row = true ↔ row.environment = environment ∧ row.channel = channel := by
  simp [cursorFor]

/-- The cursor that a feed leaves behind. -/
def PreparedApply.cursor (prepared : PreparedApply Digest) : FeedCursorRow Digest where
  environment := prepared.command.signedFeed.environment
  channel := prepared.command.signedFeed.channel
  highestFeedSequence := prepared.command.signedFeed.feedSequence
  highestFeedDigest := prepared.feedDigest

theorem cursorsAfter_unseen (unseen : ¬(feedCursor prepared record).any (fun row =>
      row.highestFeedSequence == prepared.command.signedFeed.feedSequence &&
        row.highestFeedDigest == prepared.feedDigest) = true) :
    cursorsAfter prepared record = upsert (cursorFor prepared.command.signedFeed.environment
      prepared.command.signedFeed.channel) prepared.cursor record.cursors := by
  unfold cursorsAfter
  simp only [if_neg unseen]
  rfl

theorem cursorsAfter_own (environments : prepared.command.signedFeed.environment =
      prepared.command.signedManifest.environment) :
    ∃ row, (cursorsAfter prepared record).find? (cursorFor prepared.command.signedManifest.environment
          prepared.command.signedFeed.channel) = some row ∧
      row.highestFeedSequence = prepared.command.signedFeed.feedSequence ∧
      row.highestFeedDigest = prepared.feedDigest := by
  by_cases seen : (feedCursor prepared record).any (fun row =>
      row.highestFeedSequence == prepared.command.signedFeed.feedSequence &&
        row.highestFeedDigest == prepared.feedDigest) = true
  · obtain ⟨row, held, same⟩ := (Option.any_eq_true _ _).mp seen
    refine ⟨row, ?_, by simpa using same⟩
    unfold cursorsAfter
    simp only [if_pos seen]
    exact held
  · refine ⟨prepared.cursor, ?_, rfl, rfl⟩
    rw [cursorsAfter_unseen seen, ← environments]
    have own : cursorFor prepared.command.signedFeed.environment
        prepared.command.signedFeed.channel prepared.cursor = true := cursorFor_iff.mpr ⟨rfl, rfl⟩
    exact find?_upsert own record.cursors

theorem cursorsAfter_other (environments : prepared.command.signedFeed.environment =
      prepared.command.signedManifest.environment)
    (other : ¬(environment = prepared.command.signedManifest.environment ∧
      channel = prepared.command.signedFeed.channel)) :
    (cursorsAfter prepared record).find? (cursorFor environment channel) =
      record.cursors.find? (cursorFor environment channel) := by
  by_cases seen : (feedCursor prepared record).any (fun row =>
      row.highestFeedSequence == prepared.command.signedFeed.feedSequence &&
        row.highestFeedDigest == prepared.feedDigest) = true
  · unfold cursorsAfter
    simp only [if_pos seen]
  · rw [cursorsAfter_unseen seen]
    apply find?_upsert_other
    · intro present own
      apply Bool.eq_false_iff.mpr
      intro found
      have written := cursorFor_iff.mp own
      have looked := cursorFor_iff.mp found
      apply other
      rw [← environments, ← written.1, ← written.2]
      exact ⟨looked.1.symm, looked.2.symm⟩
    · exact cursorFor_iff.mpr ⟨rfl, rfl⟩

end Cursors

/-- A receipt that comes from a signed manifest and has its authorization of a rollback. -/
structure ReceiptFrom (authority : Authority Digest) (manifest : SignedManifest Digest)
    (row : ReceiptRow Digest) : Prop where
  signed : authority.service.signature manifest.document = .valid
  digest : row.manifestDigest = digestValue authority.service manifest.document
  release : row.appliedReleaseId = manifest.releaseId ∧
    row.appliedReleaseSequence = manifest.releaseSequence
  rollback : row.rollbackToReleaseId = manifest.rollbackTo.map RollbackTarget.releaseId ∧
    row.rollbackToSequence = manifest.rollbackTo.map RollbackTarget.releaseSequence

/-- The receipt of an agent, if it has one, comes from a signed manifest. -/
def ReceiptSigned (authority : Authority Digest) (rows : Rows Digest) : Prop :=
  ∀ row ∈ receiptOf rows, ∃ manifest, ReceiptFrom authority manifest row

/-- A signed and unexpired rollback from the release of one receipt to that of the next, which
the manifest of the first has authorized. -/
structure RolledBack (authority : Authority Digest) (call : Call Digest)
    (command : ApplyCommand Digest) (rollback : RollbackPublication)
    (row next : ReceiptRow Digest) : Prop where
  asked : call.request = .applyManagedRelease command
  signed : authority.service.signature command.signedFeed.document = .valid
  published : ∃ publication ∈ command.signedFeed.publications,
    publication.rollback = some rollback
  unexpired : call.serviceNow < rollback.expiresAt
  source : rollback.fromReleaseSequence = row.appliedReleaseSequence ∧
    rollback.fromReleaseSequence = row.desiredReleaseSequence
  target : next.appliedReleaseId = rollback.toReleaseId ∧
    next.appliedReleaseSequence = rollback.toReleaseSequence
  authorized : ∃ manifest, ReceiptFrom authority manifest row ∧
    manifest.rollbackTo = some
      { releaseId := rollback.toReleaseId, releaseSequence := rollback.toReleaseSequence }

/-- The later cursor is ahead, or at the same feed. -/
def FeedCursorRow.Precedes (row later : FeedCursorRow Digest) : Prop :=
  row.highestFeedSequence < later.highestFeedSequence ∨
    row.highestFeedSequence = later.highestFeedSequence ∧
      row.highestFeedDigest = later.highestFeedDigest

/-- No cursor is lost or goes back. -/
def CursorsAdvance (before after : Rows Digest) : Prop :=
  ∀ environment channel, ∀ row ∈ cursorOf environment channel before,
    ∃ later ∈ cursorOf environment channel after, row.Precedes later

/-- What a call may do to the receipt. -/
structure ReceiptAdvances (authority : Authority Digest) (call : Call Digest)
    (before after : Rows Digest) : Prop where
  kept : receiptOf before ≠ none → receiptOf after ≠ none
  downgrade : ∀ row ∈ receiptOf before, ∀ next ∈ receiptOf after,
    next.appliedReleaseSequence < row.appliedReleaseSequence →
      ∃ command rollback, RolledBack authority call command rollback row next
  succession : ∀ row ∈ receiptOf before, ∀ next ∈ receiptOf after,
    next.appliedReleaseSequence = row.appliedReleaseSequence →
      next.manifestDigest = row.manifestDigest

section Calls

variable {authority : Authority Digest} {call : Call Digest} {command : ApplyCommand Digest}
variable {before after : Rows Digest} {record next : AgentRecord Digest} {answer : Answer Digest}
variable {prepared : PreparedApply Digest} {result : ReleaseResult Digest} {now : Int}

omit [DecidableEq Digest] in
theorem FeedCursorRow.Precedes.refl (row : FeedCursorRow Digest) : row.Precedes row :=
  .inr ⟨rfl, rfl⟩

omit [DecidableEq Digest] in
theorem FeedCursorRow.Precedes.trans {first second third : FeedCursorRow Digest}
    (earlier : first.Precedes second) (later : second.Precedes third) : first.Precedes third := by
  rcases earlier with ahead | ⟨level, digest⟩
  · rcases later with further | ⟨level, _⟩
    · exact .inl (ahead.trans further)
    · exact .inl (level ▸ ahead)
  · rcases later with further | ⟨same, digest'⟩
    · exact .inl (level ▸ further)
    · exact .inr ⟨level.trans same, digest.trans digest'⟩

omit [DecidableEq Digest] in
theorem CursorsAdvance.of_eq (same : cursorsOf after = cursorsOf before) : CursorsAdvance before after := by
  intro environment channel row held
  refine ⟨row, ?_, .refl row⟩
  unfold cursorOf at held ⊢
  rw [same]
  exact held

omit [DecidableEq Digest] in
theorem ReceiptAdvances.of_eq (same : receiptOf after = receiptOf before) :
    ReceiptAdvances authority call before after where
  kept := by
    rw [same]
    exact id
  downgrade := by
    intro row held next found lower
    rw [same, held] at found
    cases found
    omega
  succession := by
    intro row held next found _
    rw [same, held] at found
    cases found
    rfl

theorem ReleaseOutcome.cursors {service : ReleaseService Digest}
    (released : ReleaseOutcome service now prepared record result next) :
    next.cursors = cursorsAfter prepared record := by
  cases released <;> rfl

theorem release_cursors (passed : ReleasePrepared authority command call.serviceNow prepared)
    (accepted : ReleaseAccepted prepared record) (moved : cursorsOf after = cursorsAfter prepared record) :
    CursorsAdvance (some record) after := by
  have environments : prepared.command.signedFeed.environment = prepared.command.signedManifest.environment := by
    rw [passed.carries]
    exact passed.environment
  intro environment channel row held
  by_cases own : environment = prepared.command.signedManifest.environment ∧
      channel = prepared.command.signedFeed.channel
  · obtain ⟨rfl, rfl⟩ := own
    obtain ⟨later, found, sequence, digest⟩ := cursorsAfter_own environments
    refine ⟨later, ?_, ?_⟩
    · unfold cursorOf
      rw [moved]
      exact found
    · rcases checkFeedOrder_ok accepted.feed row held with ahead | ⟨level, same⟩
      · left
        omega
      · exact .inr ⟨level.trans sequence.symm, same.trans digest.symm⟩
  · refine ⟨row, ?_, .refl row⟩
    unfold cursorOf
    rw [moved, cursorsAfter_other environments own]
    exact held

/-- The same release of the same manifest, whatever has become of its feed. -/
structure SameRelease (row next : ReceiptRow Digest) : Prop where
  release : next.appliedReleaseId = row.appliedReleaseId ∧
    next.appliedReleaseSequence = row.appliedReleaseSequence
  digest : next.manifestDigest = row.manifestDigest
  rollback : next.rollbackToReleaseId = row.rollbackToReleaseId ∧
    next.rollbackToSequence = row.rollbackToSequence

omit [DecidableEq Digest] in
theorem SameRelease.receiptFrom {row later : ReceiptRow Digest} {manifest : SignedManifest Digest}
    (same : SameRelease row later) (signed : ReceiptFrom authority manifest row) :
    ReceiptFrom authority manifest later where
  signed := signed.signed
  digest := same.digest.trans signed.digest
  release := ⟨same.release.1.trans signed.release.1, same.release.2.trans signed.release.2⟩
  rollback := ⟨same.rollback.1.trans signed.rollback.1, same.rollback.2.trans signed.rollback.2⟩

omit [DecidableEq Digest] in
theorem receipt_same {row later : ReceiptRow Digest} (held : receiptOf before = some row)
    (found : receiptOf after = some later) (same : SameRelease row later) (signed : ReceiptSigned authority before) :
    ReceiptAdvances authority call before after ∧ ReceiptSigned authority after := by
  refine ⟨⟨?_, ?_, ?_⟩, ?_⟩
  · rw [found]
    simp
  · intro first one second two lower
    rw [held] at one
    rw [found] at two
    cases one
    cases two
    have level := same.release.2
    omega
  · intro first one second two _
    rw [held] at one
    rw [found] at two
    cases one
    cases two
    exact same.digest
  · intro second two
    rw [found] at two
    cases two
    obtain ⟨manifest, from_⟩ := signed row held
    exact ⟨manifest, same.receiptFrom from_⟩

omit [DecidableEq Digest] in
theorem sameRelease_advanced {row : ReceiptRow Digest} : SameRelease row (advancedReceipt prepared row) :=
  ⟨⟨rfl, rfl⟩, rfl, ⟨rfl, rfl⟩⟩

theorem receiptFor_from {hash : Digest} (passed : ReleasePrepared authority command call.serviceNow prepared) :
    ReceiptFrom authority command.signedManifest (receiptFor authority.service now prepared hash) where
  signed := passed.manifestSignature
  digest := (validatePublication_ok passed.publication).digest
  release := by
    rw [← passed.carries]
    exact ⟨rfl, rfl⟩
  rollback := by
    rw [← passed.carries]
    exact ⟨rfl, rfl⟩

theorem replaced_rolledBack {row : ReceiptRow Digest} {hash : Digest}
    (asked : call.request = .applyManagedRelease command)
    (passed : ReleasePrepared authority command call.serviceNow prepared)
    (signed : ∃ manifest, ReceiptFrom authority manifest row)
    (order : checkPublicationOrder prepared (some row) = .ok ())
    (older : prepared.command.signedManifest.releaseSequence < row.appliedReleaseSequence) :
    ∃ command rollback, RolledBack authority call command rollback row
      (receiptFor authority.service now prepared hash) := by
  obtain ⟨rollback, present, source, desired, allowedId, allowedSequence⟩ :=
    checkPublicationOrder_older order older
  have published := validatePublication_ok passed.publication
  obtain ⟨sequence, id, unexpired⟩ := published.rollback rollback present
  refine ⟨command, rollback, asked, passed.feedSignature,
    ⟨prepared.publication, published.member, present⟩, unexpired, ⟨source, desired⟩, ?_, ?_⟩
  · rw [sequence, id, ← passed.carries]
    exact ⟨rfl, rfl⟩
  · obtain ⟨manifest, made⟩ := signed
    refine ⟨manifest, made, ?_⟩
    have idSame := made.rollback.1.symm.trans allowedId
    have sequenceSame := made.rollback.2.symm.trans allowedSequence
    cases authorized : manifest.rollbackTo with
    | none =>
      rw [authorized] at idSame
      contradiction
    | some target =>
      rw [authorized] at idSame sequenceSame
      have id' : target.releaseId = rollback.toReleaseId := Option.some.inj idSame
      have sequence' : target.releaseSequence = rollback.toReleaseSequence :=
        Option.some.inj sequenceSame
      rw [← id', ← sequence']

theorem release_receipt (asked : call.request = .applyManagedRelease command)
    (passed : ReleasePrepared authority command call.serviceNow prepared)
    (released : ReleaseOutcome authority.service now prepared record result next)
    (found : receiptOf after = next.receipt) (signed : ReceiptSigned authority (some record)) :
    ReceiptAdvances authority call (some record) after ∧ ReceiptSigned authority after := by
  cases released with
  | kept retried intact moved =>
    refine receipt_same retried.held found ?_ signed
    rcases moved with same | advanced
    · rw [same]
      exact ⟨⟨rfl, rfl⟩, rfl, ⟨rfl, rfl⟩⟩
    · rw [advanced]
      exact sameRelease_advanced
  | repaired retried =>
    exact receipt_same retried.held found sameRelease_advanced signed
  | replaced other order =>
    refine ⟨⟨?_, ?_, ?_⟩, ?_⟩
    · rw [found]
      intro _ missing
      cases missing
    · intro row held later same lower
      rw [found] at same
      cases same
      have present : record.receipt = some row := held
      rw [present] at order
      exact replaced_rolledBack asked passed (signed row held) order lower
    · intro row held later same level
      rw [found] at same
      cases same
      exact absurd level.symm (other row held)
    · intro row same
      rw [found] at same
      cases same
      exact ⟨command.signedManifest, receiptFor_from passed⟩

omit [DecidableEq Digest] in
theorem bootstrap_receipt {platform : Platform Digest} {target : Target} {bootstrap : MaterializedBootstrap Digest}
    (outcome : BootstrapOutcome platform target bootstrap before answer after) :
    receiptOf after = receiptOf before ∧ cursorsOf after = cursorsOf before := by
  cases outcome with
  | refused record reason => exact ⟨rfl, rfl⟩
  | replayed record state => exact ⟨rfl, rfl⟩
  | applied earlier base next created present allowed writes row =>
    have receipt : receiptOf before = base.receipt := by
      cases before <;> subst present <;> rfl
    have cursors : cursorsOf before = base.cursors := by
      cases before <;> subst present <;> rfl
    rw [receipt, cursors, ← writes.receipt, ← writes.cursors]
    exact ⟨rfl, rfl⟩

theorem call_order (outcome : CallOutcome authority call before answer after)
    (signed : ReceiptSigned authority before) :
    CursorsAdvance before after ∧ ReceiptAdvances authority call before after ∧ ReceiptSigned authority after := by
  have untouched : receiptOf after = receiptOf before ∧ cursorsOf after = cursorsOf before →
      CursorsAdvance before after ∧ ReceiptAdvances authority call before after ∧
        ReceiptSigned authority after := by
    intro ⟨receipt, cursors⟩
    refine ⟨.of_eq cursors, .of_eq receipt, ?_⟩
    unfold ReceiptSigned
    rw [receipt]
    exact signed
  cases outcome with
  | bootstrap asked materialized outcome => exact untouched (bootstrap_receipt outcome)
  | nativePatch asked materialized outcome =>
    apply untouched
    cases outcome <;> exact ⟨rfl, rfl⟩
  | enrollment asked outcome =>
    apply untouched
    cases outcome <;> exact ⟨rfl, rfl⟩
  | managedRelease asked preparation outcome =>
    have passed := prepareManagedRelease_ok preparation
    cases outcome with
    | unchanged accepted next released =>
      exact ⟨release_cursors passed accepted released.cursors, release_receipt asked passed released rfl signed⟩
    | recorded accepted next released =>
      exact ⟨release_cursors passed accepted released.cursors, release_receipt asked passed released rfl signed⟩

/-- The cursor of a command's channel, before the command is accepted and after. -/
structure FeedAccepted (authority : Authority Digest) (command : ApplyCommand Digest)
    (before after : Rows Digest) : Prop where
  behind : ∀ row ∈ cursorOf command.signedManifest.environment command.signedFeed.channel before,
    row.highestFeedSequence < command.signedFeed.feedSequence ∨
      row.highestFeedSequence = command.signedFeed.feedSequence ∧
        row.highestFeedDigest = digestValue authority.service command.signedFeed.document
  reached : ∃ row ∈ cursorOf command.signedManifest.environment command.signedFeed.channel after,
    row.highestFeedSequence = command.signedFeed.feedSequence ∧
      row.highestFeedDigest = digestValue authority.service command.signedFeed.document

theorem release_feed (passed : ReleasePrepared authority command call.serviceNow prepared)
    (accepted : ReleaseAccepted prepared record) (moved : cursorsOf after = cursorsAfter prepared record) :
    FeedAccepted authority command (some record) after := by
  have digest := passed.feedDigest
  have carries := passed.carries
  have environments := passed.environment
  subst carries
  constructor
  · intro row held
    rw [← digest]
    exact checkFeedOrder_ok accepted.feed row held
  · obtain ⟨row, found, sequence, same⟩ := cursorsAfter_own environments
    refine ⟨row, ?_, sequence, same.trans digest⟩
    unfold cursorOf
    rw [moved]
    exact found

theorem call_feed (outcome : CallOutcome authority call before answer after)
    (asked : call.request = .applyManagedRelease command) : FeedAccepted authority command before after := by
  cases outcome with
  | managedRelease same preparation outcome =>
    cases asked.symm.trans same
    have passed := prepareManagedRelease_ok preparation
    cases outcome with
    | unchanged accepted next released => exact release_feed passed accepted released.cursors
    | recorded accepted next released => exact release_feed passed accepted released.cursors
  | bootstrap same | nativePatch same | enrollment same => cases asked.symm.trans same

end Calls

section Runs

variable {authority : Authority Digest} {command again : ApplyCommand Digest}
variable {call retry : Call Digest} {answer response : Answer Digest}
variable {earlier first second third : AgentSession Digest}

/-- The runs of the authority on an agent that has no receipt at first. -/
def releaseSessions (authority : Authority Digest) : Machine (AgentSession Digest) (SessionEvent (Call Digest)) :=
  Session.sessions (program authority) fun rows => receiptOf rows = none

section

variable (reached : (releaseSessions authority).Reachable unrestricted first)
include reached

theorem run_signed : ReceiptSigned authority first.committed := by
  refine Session.committed_invariant ?_ ?_ reached
  · intro rows missing row held
    rw [missing] at held
    contradiction
  · intro call rows answer later signed ran
    exact (call_order (program_ok ran) signed).2.2

theorem run_cursors (later : (releaseSessions authority).Later unrestricted first second) :
    CursorsAdvance first.committed second.committed := by
  refine Session.committed_related CursorsAdvance ?_ ?_ ?_ reached later
  · exact fun rows => .of_eq rfl
  · intro first second third earlier later environment channel row held
    obtain ⟨between, found, ahead⟩ := earlier environment channel row held
    obtain ⟨last, seen, further⟩ := later environment channel between found
    exact ⟨last, seen, ahead.trans further⟩
  · intro call session answer rows reached ran
    exact (call_order (program_ok ran) (run_signed reached)).1

theorem accepted_feed (answered : Session.Answers (program authority) first second call (.ok answer))
    (asked : call.request = .applyManagedRelease command) :
    FeedAccepted authority command first.committed second.committed :=
  call_feed (program_ok (Transaction.run_of_execute (answered.executes reached))) asked

end

/-- The receipt goes back by authorized rollbacks only, the cursors never do, no feed
sequence of a channel is accepted with two digests, and a command that fails changes nothing. -/
theorem releases_never_fall_back (reached : (releaseSessions authority).Reachable unrestricted first)
    (later : (releaseSessions authority).Later unrestricted first second) :
    CursorsAdvance first.committed second.committed ∧
      (∀ event third, second.step (program authority) event = some third →
        event ≠ .finish ∧ third.committed = second.committed ∨
          ∃ call answer, Session.Answers (program authority) second third call answer ∧
            ReceiptAdvances authority call second.committed third.committed ∧
            ∀ failure, answer = .error failure → third.committed = second.committed) ∧
      ∀ earlier third call command answer retry again response,
        (releaseSessions authority).Reachable unrestricted earlier →
        Session.Answers (program authority) earlier first call (.ok answer) →
        call.request = .applyManagedRelease command →
        Session.Answers (program authority) second third retry (.ok response) →
        retry.request = .applyManagedRelease again →
        again.signedManifest.environment = command.signedManifest.environment →
        again.signedFeed.channel = command.signedFeed.channel →
        again.signedFeed.feedSequence = command.signedFeed.feedSequence →
          digestValue authority.service again.signedFeed.document =
            digestValue authority.service command.signedFeed.document := by
  refine ⟨run_cursors reached later, ?_, ?_⟩
  · intro event third stepped
    by_cases ends : event = .finish
    · subst ends
      obtain ⟨call, answer, answered⟩ := Session.answers_of_finish stepped
      have executed := answered.executes (reached.later later)
      refine .inr ⟨call, answer, answered, ?_⟩
      cases answer with
      | error failure =>
        have same := Transaction.rows_of_execute executed
        rw [same]
        exact ⟨.of_eq rfl, fun _ _ => rfl⟩
      | ok result =>
        have outcome := program_ok (Transaction.run_of_execute executed)
        exact ⟨(call_order outcome (run_signed (reached.later later))).2.1, nofun⟩
    · exact .inl ⟨ends, Session.committed_kept stepped ends⟩
  · intro earlier third call command answer retry again response begun accepted asked repeated
      askedAgain environment channel sequence
    obtain ⟨row, held, level, digest⟩ := (accepted_feed begun accepted asked).reached
    obtain ⟨seen, found, ahead⟩ := run_cursors reached later _ _ row held
    have checked := (accepted_feed (reached.later later) repeated askedAgain).behind
    rw [environment, channel] at checked
    rcases checked seen found with behind | ⟨same, digest'⟩
    · rcases ahead with further | ⟨same, _⟩ <;> omega
    · rcases ahead with further | ⟨_, digest''⟩
      · omega
      · rw [← digest', ← digest'', digest]

/-- A release that writes the soul of the agent, and its feed of the same sequence. -/
def soulRelease (sequence : Nat) (expected : Option Nat) (soul : String) : ApplyCommand Json :=
  let manifest : Json := .object [("releaseSequence", natJson sequence), ("soulMd", .string soul)]
  let feed : Json := .object [("feedSequence", natJson sequence), ("manifest", manifest)]
  { document := feed
    signedManifest :=
      { document := manifest, releaseId := "release", releaseSequence := sequence
        environment := .production, releaseKind := .capabilityActivation
        managedSettings := [(.soulMd, .string soul)], controlPlanePolicy := none
        rollbackTo := none }
    signedFeed :=
      { document := feed, feedSequence := sequence, environment := .production, channel := .stable
        publications :=
          [{ releaseId := "release", releaseSequence := sequence, manifestDigest := manifest
             manifest, rollback := none }]
        activation := none }
    assignment :=
      { environment := .production, targetId := "target", toolboxUserId := "owner"
        agentId := "agent" }
    current := false
    expectedCurrentReleaseSequence := expected
    expectedConfigurationRevision := none
    personal := none
    baselineOverride := none
    commandDigest := feed }

def releaseCall (command : ApplyCommand Json) : Call Json where
  request := .applyManagedRelease command
  serviceNow := 0
  now := 0

/-- An agent of a toolbox owner, before its first release. -/
def ownedRows : Rows Json :=
  some
    { name := "agent", description := none, ownerPlatform := some "toolbox"
      ownerUserId := some "owner", settings := Settings.initial, control := none, commands := []
      fence := none, receipt := none, cursors := [], grants := [], provisioningGrants := [] }

/-- The rows after the first release and after the second. -/
def releasedOnce : Rows Json :=
  ((program plainAuthority (releaseCall (soulRelease 1 none "first"))).execute ownedRows).2

def releasedTwice : Rows Json :=
  ((program plainAuthority (releaseCall (soulRelease 2 (some 1) "second"))).execute releasedOnce).2

theorem releases_never_fall_back_twice :
    ∃ first second : AgentSession Json, (releaseSessions plainAuthority).Later unrestricted first second ∧
        (receiptOf first.committed).map ReceiptRow.appliedReleaseSequence = some 1 ∧
        (receiptOf second.committed).map ReceiptRow.appliedReleaseSequence = some 2 ∧
        CursorsAdvance first.committed second.committed := by
  have begun : (releaseSessions plainAuthority).Reachable unrestricted
      (⟨ownedRows, none⟩ : AgentSession Json) := .start ⟨rfl, rfl⟩
  have once : (releaseSessions plainAuthority).Later unrestricted ⟨ownedRows, none⟩
      ⟨releasedOnce, none⟩ := later_call plainAuthority _ ownedRows
  have twice : (releaseSessions plainAuthority).Later unrestricted ⟨releasedOnce, none⟩
      ⟨releasedTwice, none⟩ := later_call plainAuthority _ releasedOnce
  have computed : (receiptOf releasedOnce).map ReceiptRow.appliedReleaseSequence = some 1 ∧
      (receiptOf releasedTwice).map ReceiptRow.appliedReleaseSequence = some 2 := by
    decide +kernel
  have ordered := (releases_never_fall_back (begun.later once) twice).1
  exact ⟨⟨releasedOnce, none⟩, ⟨releasedTwice, none⟩, twice, computed.1, computed.2, ordered⟩

end Runs

end Lobu.Configuration
