/-
# What a failed fetch tells

Whatever the server replies, a fetch fails for one of two reasons: a stage of it has failed, or an
exchange with the server has broken down.  The main result is `tells_extract`; a breakdown because
of a request that cannot be sent is told apart from the others by `Failure.Unsent`.
-/
import ContractInterface.Proofs.Fetch.Staging

namespace ContractInterface.Fetch

open Rpc (Client)

variable {α β : Type}

/-- A failure that tells its reason: a stage that failed, or an exchange that broke down. -/
inductive Failure.Told : Failure → Prop where
  | stage (stage : Stage) {cause : Cause} (h : cause.isStaged = true) : Told ⟨some stage, cause⟩
  | exchange (breakdown : Rpc.Breakdown) : Told ⟨none, .rpc (.broken breakdown)⟩

/-- The failure of a fetch that could not send a request as it was. -/
def Failure.Unsent (failure : Failure) : Prop :=
  ∃ reason, failure = ⟨none, .rpc (.broken (.unsendable reason))⟩

namespace Action

/-- A part of a fetch that fails only with failures that tell their reason. -/
def Tells (part : Action α) : Prop :=
  ∀ ⦃h failure after⦄, part.run h = .error failure after → failure.Told

lemma tells_pure (value : α) : Tells (pure value) := by
  intro h failure after hrun
  cases hrun

lemma Tells.bind {part : Action α} {rest : α → Action β} (h : Tells part)
    (hrest : ∀ value, Tells (rest value)) : Tells (part >>= rest) := by
  intro history failure after hrun
  rw [EStateM.run_bind] at hrun
  cases hpart : part.run history with
  | ok value history' =>
    rw [hpart] at hrun
    exact hrest value hrun
  | error failure' history' =>
    rw [hpart] at hrun
    obtain ⟨rfl, -⟩ := EStateM.Result.error.inj hrun
    exact h hpart

/-- A line in the log is no failure. -/
lemma Tells.report_bind {rest : Unit → Action β} (h : Tells (rest ())) (level : Level)
    (text : String) : Tells (report level text >>= rest) :=
  fun _ _ _ hrun => h hrun

lemma tells_within (stage : Stage) {result : Except Cause α}
    (h : ∀ cause, result = .error cause →
      cause.isStaged = true ∨ ∃ breakdown, cause = .rpc (.broken breakdown)) :
    Tells (within stage result) := by
  cases result with
  | ok value => exact tells_pure value
  | error cause =>
    intro history failure after hrun
    by_cases hstaged : cause.isStaged = true
    · simp only [within, hstaged, if_true] at hrun
      obtain ⟨rfl, -⟩ := EStateM.Result.error.inj hrun
      exact .stage stage hstaged
    · obtain ⟨breakdown, rfl⟩ := (h cause rfl).resolve_left hstaged
      obtain ⟨rfl, -⟩ := EStateM.Result.error.inj hrun
      exact .exchange breakdown

lemma tells_within_mapError {δ : Type} (stage : Stage) (result : Except δ α) {wrap : δ → Cause}
    (h : ∀ defect, (wrap defect).isStaged = true) :
    Tells (within stage (result.mapError wrap)) := by
  refine tells_within stage fun cause hcause => .inl ?_
  cases result with
  | ok value => cases hcause
  | error defect =>
    obtain rfl := Except.error.inj hcause
    exact h defect

lemma tells_lookUp (client : Client) (stage : Stage) (what : String) (key : Ledger.Key)
    (take : String → Except Ledger.EntryError α) : Tells (lookUp client stage what key take) := by
  rintro ⟨sent, log⟩ failure after hrun
  rw [lookUp_run] at hrun
  refine tells_within stage (fun cause hcause => ?_) hrun
  have hends := looksUp_takeFirst client sent what key take
  rw [hcause] at hends
  cases hends with
  | @unanswered error hreply =>
    cases error with
    | broken breakdown => exact .inr ⟨breakdown, rfl⟩
    | _ => exact .inl rfl
  | missing hreply => exact .inl rfl
  | refused hreply htake => exact .inl rfl

end Action

lemma tells_codeHash (client : Client) (address : String) : (codeHash client address).Tells := by
  have hpayload : (Action.within .decodeAddress
      ((Strkey.decode .contract address).mapError Cause.address)).Tells :=
    Action.tells_within_mapError _ _ fun _ => rfl
  exact hpayload.bind fun contract => Action.tells_lookUp ..

lemma tells_specOfCode (wasm : Bytes) : (specOfCode wasm).Tells :=
  Action.tells_within_mapError _ _ fun _ => rfl

/-- **A fetch that fails tells why**, whatever the server replies. -/
theorem tells_extract (client : Client) (address : String) : (extract client address).Tells := by
  have hwasm : (wasm client address).Tells := by
    refine Action.Tells.report_bind ((tells_codeHash client address).bind fun hash => ?_) _ _
    refine Action.Tells.report_bind (Action.Tells.report_bind ?_ _ _) _ _
    refine (Action.tells_lookUp ..).bind fun found => Action.Tells.report_bind ?_ _ _
    exact Action.tells_pure (hash, found)
  refine hwasm.bind fun found => Action.Tells.report_bind ?_ _ _
  refine (tells_specOfCode found.2).bind fun spec => Action.Tells.report_bind ?_ _ _
  exact Action.tells_pure _

end ContractInterface.Fetch
