import DbSteward.Proofs.Effect
import DbSteward.Proofs.Fidelity

/-!
# Log types to switch

The comparison takes the log types of a resource as sets, while the request to switch them is
made by filtering two lists by each other.  Both say the same, whatever is repeated in the lists
and in which order they are: there is something to switch exactly when the sets differ, and what is
to be switched leads from the one set to the other.
-/

namespace DbSteward

namespace LogExports

variable {desired observed : List String}

/-- The log types to switch lead from the observed ones to the desired ones, and there are none
exactly when the two agree. -/
structure Bridges (exports : LogExports) (desired observed : List String) : Prop where
  enable_sublist : exports.enable.Sublist desired
  disable_sublist : exports.disable.Sublist observed
  enable_missing : exports.enable.Disjoint observed
  disable_unwanted : exports.disable.Disjoint desired
  apart : exports.enable.Disjoint exports.disable
  reached : SameItems (exports.applyTo observed) desired
  empty_iff : exports.enable = [] ∧ exports.disable = [] ↔
    (Value.set desired).disagrees (.set observed) = false

theorem mem_enable_iff {log : String} :
    log ∈ (between desired observed).enable ↔ log ∈ desired ∧ log ∉ observed := by
  simp [between]

theorem mem_disable_iff {log : String} :
    log ∈ (between desired observed).disable ↔ log ∈ observed ∧ log ∉ desired := by
  simp [between]

theorem between_empty_iff :
    (between desired observed).enable = [] ∧ (between desired observed).disable = [] ↔
      (Value.set desired).disagrees (.set observed) = false := by
  rw [Value.disagrees, ← Bool.not_eq_true, setDisagrees_iff, not_not,
    List.eq_nil_iff_forall_not_mem, List.eq_nil_iff_forall_not_mem]
  simp only [mem_enable_iff, mem_disable_iff, not_and, not_not]
  constructor
  · rintro ⟨hwanted, hfound⟩ log
    exact ⟨hwanted log, hfound log⟩
  · intro hsame
    exact ⟨fun log => (hsame log).1, fun log => (hsame log).2⟩

theorem bridges_between (desired observed : List String) :
    (between desired observed).Bridges desired observed where
  enable_sublist := List.filter_sublist
  disable_sublist := List.filter_sublist
  enable_missing := fun _ hmem => (mem_enable_iff.1 hmem).2
  disable_unwanted := fun _ hmem => (mem_disable_iff.1 hmem).2
  apart := fun _ henable hdisable => (mem_enable_iff.1 henable).2 (mem_disable_iff.1 hdisable).1
  reached := sameItems_applyTo_between desired observed
  empty_iff := between_empty_iff

theorem between_not_empty (hdiffer : ¬ SameItems desired observed) :
    between desired observed ≠ ⟨[], []⟩ := by
  intro hempty
  have hparts : (between desired observed).enable = [] ∧
      (between desired observed).disable = [] := by
    rw [hempty]
    exact ⟨rfl, rfl⟩
  have hagree := between_empty_iff.1 hparts
  rw [Value.disagrees, setDisagrees_iff.2 hdiffer] at hagree
  exact Bool.noConfusion hagree

end LogExports

namespace Pass

/-- The log types to switch between two lists lead from the one to the other, and those in a modify
request that a pass sends lead from the observed to the desired ones and are never none. -/
theorem log_exports_reach_desired :
    (∀ desired observed, (LogExports.between desired observed).Bridges desired observed) ∧
      (∀ (context : Context) (world : World) (desired observed : Document .dbCluster)
        (request : Modification clusterSchema) (exports : LogExports),
        .modifyCluster request ∈ calls world (settle context desired observed) →
        request.logs = some exports →
          exports.Bridges ((desired.spec .logExports).getD [])
            ((observed.spec .logExports).getD []) ∧ exports ≠ ⟨[], []⟩) ∧
      ∀ (context : Context) (world : World) (desired observed : Document .dbInstance)
        (request : Modification instanceSchema) (exports : LogExports),
        .modifyInstance request ∈ calls world (settle context desired observed) →
        request.logs = some exports →
          exports.Bridges ((desired.spec .logExports).getD [])
            ((observed.spec .logExports).getD []) ∧ exports ≠ ⟨[], []⟩ := by
  refine ⟨LogExports.bridges_between, ?_, ?_⟩
  · intro context world desired observed request exports hmem hlogs
    have hwanted : (desired.normal observed).spec .logExports = desired.spec .logExports :=
      Cluster.normal_of_ne (by decide)
    obtain ⟨hdiffer, rfl⟩ := ((faithful_of_modifyCluster hmem).logs_iff exports).1 hlogs
    rw [hwanted] at hdiffer ⊢
    exact ⟨LogExports.bridges_between _ _, LogExports.between_not_empty hdiffer⟩
  · intro context world desired observed request exports hmem hlogs
    have hwanted : (desired.normal observed).spec .logExports = desired.spec .logExports := rfl
    obtain ⟨-, hdiffer, rfl⟩ := ((faithful_of_modifyInstance hmem).logs_iff exports).1 hlogs
    rw [hwanted] at hdiffer ⊢
    exact ⟨LogExports.bridges_between _ _, LogExports.between_not_empty hdiffer⟩

end Pass

/-- A small cluster that exports some log types. -/
def Document.sampleLogging (logs : List String) (arn live : Option String) :
    Document .dbCluster where
  metadata := .blank
  spec
    | .identifier => some "main"
    | .logExports => some logs
    | f => clusterSchema.blank f
  status := ⟨arn, live, [], ⟨none, none⟩⟩

namespace Pass

theorem repeated_logs_reach_desired :
    ∃ request exports, Call.modifyCluster request ∈ calls (.initial (.memory .fresh))
        (settle .sample (.sampleLogging ["general", "error", "general"] none none)
          (.sampleLogging ["audit", "error", "audit"] (some "arn:main") (some "available"))) ∧
      request.logs = some exports ∧
      exports.Bridges ["general", "error", "general"] ["audit", "error", "audit"] ∧
      exports ≠ ⟨[], []⟩ := by
  have hsent : ((calls (.initial (.memory .fresh)) (settle .sample
      (.sampleLogging ["general", "error", "general"] none none)
      (.sampleLogging ["audit", "error", "audit"] (some "arn:main") (some "available")))).any
        fun c =>
          match c with
          | .modifyCluster request => request.logs.isSome
          | _ => false) = true := by
    decide +kernel
  obtain ⟨c, hmem, hmodify⟩ := List.any_eq_true.1 hsent
  cases c with
  | modifyCluster request =>
      obtain ⟨exports, hlogs⟩ := Option.isSome_iff_exists.1 hmodify
      exact ⟨request, exports, hmem, hlogs,
        log_exports_reach_desired.2.1 _ _ _ _ request exports hmem hlogs⟩
  | _ => simp at hmodify

end Pass
end DbSteward
