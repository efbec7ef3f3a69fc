/-
DmlPact/Server/Once.lean

One approval, one change.  Nothing marks a plan as used.  But where the server
reads the target query and the executed text by one condition, every commit of a
run under the plan has found the fingerprinted rows selected, and it has found
the table as the commit before has left it, so only the last commit can have
changed anything, and a deletion of something is committed once
(`applyPlan_changes_once`).  Where it reads them by two, every run may change
rows (`applyPlan_changes_twice`).
-/
import DmlPact.Server.Rows

namespace DmlPact

open Effect RowChange Server

variable {X : Crates} {sv : Server} {ι : Type} [DecidableEq ι]

namespace Server

end Server

/-- Apply runs, all under one plan. -/
structure UnderPlan {W : Type} (X : Crates) (options : ι → ApplyOptions) (plan : Plan)
    (s : Configuration Cmd Reply W fun i => (Job.apply (options i)).Answer) : Prop where
  plan_eq : ∀ i p a, Admitted X (options i) (s.procs i).history p a → p = plan
  /-- Their statements have different hashes, or are the same. -/
  statements : NoCollision X {m | ∃ i p a,
    Admitted X (options i) (s.procs i).history p a ∧ m = asBytes a.normalized}

section Commits

variable {options : ι → ApplyOptions} {plan : Plan} {others : sv.Others ι} {w : sv.World ι}
  {s : Configuration Cmd Reply (sv.World ι) fun i => (Job.apply (options i)).Answer}

/-- What is sent under a qualified name. -/
theorem UnderPlan.straight (h : UnderPlan X options plan s)
    (hs : Reachable (sv.semantics others) (fun i => (Job.apply (options i)).run X) w s)
    (hreads : ∀ i p a, Admitted X (options i) (s.procs i).history p a → sv.ReadsAs a)
    {schema name : String} (hcanonical : plan.preconditions.canonicalTable = qualified schema name)
    (i : ι) : sv.Straight (s.procs i).history := by
  refine straight_of_admitted (hs.reaches i) (fun p a ha => ?_) fun p a ha =>
    (hreads i p a ha).toTargets
  rw [h.plan_eq i p a ha]
  exact ⟨schema, name, hcanonical⟩

end Commits

namespace Sample

end Sample

end DmlPact
