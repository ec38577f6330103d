import FileIndexing.Service.Rebuild

/-!
# Programs that put files back

A rebuild hands the index over to a program of the caller, which puts files back as it likes: it may
look at the result of each of them, or not, before it decides how to go on, and it may do anything
else meanwhile.  A `Filling` is such a program with the files that it puts back in plain sight.

* `Filling.action` is the program as a rebuild runs it.
* `Filling.run` runs it alone and keeps what every file came to; `Filling.run_action` says that the
  two are the same.
* `Filling.Puts` says which files a filling puts back, in which order.
* `Environment.session` is the run that a rebuild makes of a filling.
-/

namespace FileIndexing

/-- A program that puts files back into an index that is being rebuilt. -/
inductive Filling (S C : Type) where
  /-- Ends, normally or not. -/
  | done (result : Except Failure Unit)
  /-- Makes some other access to the service. -/
  | step (ready : ServiceState S C → Bool) (act : ServiceState S C → ServiceState S C)
      (next : ServiceState S C → Filling S C)
  /-- Puts a file back and goes on in the light of what that came to. -/
  | call (input : InputId) (content : FileContent) (next : Except Failure Bool → Filling S C)

/-- What a filling that was run alone came to. -/
structure Filled (S C : Type) where
  /-- What every file came to, the first one first. -/
  calls : List (Except Failure Bool)
  result : Except Failure Unit
  state : ServiceState S C

namespace Filling

variable {S U C : Type}

/-- A filling as it is run by a rebuild of an index. -/
def action (env : Environment S U C) (index : IndexId) : Filling S C → ServiceAction S C Unit
  | .done result => Action.resume result
  | .step ready act next =>
    ExceptT.mk (.step ready act fun s => ((next s).action env index).program)
  | .call input content next => do
    let r ← (env.indexFile index input content).outcome
    (next r).action env index

/-- Runs a filling alone, unless it waits for ever. -/
def run (env : Environment S U C) (index : IndexId) :
    Filling S C → ServiceState S C → Option (Filled S C)
  | .done result, s => some ⟨[], result, s⟩
  | .step ready act next, s => if ready s then (next s).run env index (act s) else none
  | .call input content next, s =>
    ((env.indexFile index input content).run s).bind fun (r, t) =>
      ((next r).run env index t).map fun filled => { filled with calls := r :: filled.calls }

/-- Running a filling is running it as a rebuild does. -/
theorem run_action (env : Environment S U C) (index : IndexId) (f : Filling S C)
    (s : ServiceState S C) :
    (f.action env index).run s =
      (f.run env index s).map fun filled => (filled.result, filled.state) := by
  induction f generalizing s with
  | done result => exact Action.run_resume result s
  | step ready act next ih =>
    show (if ready s then ((next s).action env index).run (act s) else none) = _
    rw [run]
    split
    · exact ih s (act s)
    · rfl
  | call input content next ih =>
    rw [action, run, Action.run_bind, Action.run_outcome]
    cases (env.indexFile index input content).run s with
    | none => rfl
    | some r =>
      obtain ⟨r, t⟩ := r
      simpa [Function.comp_def] using ih r t

/-- Running a filling that puts a file back is putting that file back and running the rest. -/
theorem run_call_eq_some {env : Environment S U C} {index : IndexId} {input : InputId}
    {content : FileContent} {next : Except Failure Bool → Filling S C} {s : ServiceState S C}
    {filled : Filled S C} :
    (call input content next).run env index s = some filled ↔
      ∃ r t rest, (env.indexFile index input content).run s = some (r, t) ∧
        (next r).run env index t = some rest ∧
        filled = { rest with calls := r :: rest.calls } := by
  simp only [run, Option.bind_eq_some_iff, Option.map_eq_some_iff, Prod.exists]
  constructor
  · rintro ⟨r, t, hfile, rest, hrest, rfl⟩
    exact ⟨r, t, rest, hfile, hrest, rfl⟩
  · rintro ⟨r, t, rest, hfile, hrest, rfl⟩
    exact ⟨r, t, hfile, rest, hrest, rfl⟩

/-- Puts files back one after the other, as long as none of them fails. -/
def ofFiles : List (InputId × FileContent) → Filling S C
  | [] => .done (.ok ())
  | (input, content) :: rest =>
    .call input content fun
      | .ok _ => ofFiles rest
      | .error failure => .done (.error failure)

/-- A filling that puts some files back, one after the other, and then ends normally, as long as
none of them fails.  Other than that it only works on what the embedding program shares. -/
inductive Puts : List (InputId × FileContent) → Filling S C → Prop where
  | done : Puts [] (.done (.ok ()))
  | step {files : List (InputId × FileContent)} {ready : ServiceState S C → Bool}
      {act : ServiceState S C → ServiceState S C} {next : ServiceState S C → Filling S C} :
      (∀ s, ready s = true) → (∀ s, ∃ client, act s = { s with client }) →
      (∀ s, Puts files (next s)) → Puts files (.step ready act next)
  | call {input : InputId} {content : FileContent} {rest : List (InputId × FileContent)}
      {next : Except Failure Bool → Filling S C} :
      (∀ changed, Puts rest (next (.ok changed))) →
      Puts ((input, content) :: rest) (.call input content next)

theorem puts_ofFiles (files : List (InputId × FileContent)) :
    (ofFiles files : Filling S C).Puts files := by
  induction files with
  | nil => exact .done
  | cons file rest ih => exact .call fun _ => ih

end Filling

namespace Environment

variable {S U C : Type}

/-- The run that a rebuild makes of a filling, once it has claimed and cleared the index. -/
def session (env : Environment S U C) (index : IndexId) (f : Filling S C)
    (s : ServiceState S C) : Option (Filled S C) :=
  if s.isRegistered index then
    match (env.claimAndClear index).run s with
    | some (.ok (some (_, .ok ())), t) => f.run env index t
    | _ => none
  else none

/-- A session is the run of a filling from where the claim and the clearing left the service. -/
theorem session_eq_some {env : Environment S U C} {index : IndexId} {f : Filling S C}
    {s : ServiceState S C} {filled : Filled S C} :
    env.session index f s = some filled ↔ s.isRegistered index = true ∧
      ∃ run t, (env.claimAndClear index).run s = some (.ok (some (run, .ok ())), t) ∧
        f.run env index t = some filled := by
  unfold session
  split
  · next hregistered =>
    split
    · next run t hclaim =>
      refine ⟨fun hfilled => ⟨hregistered, run, t, hclaim, hfilled⟩, ?_⟩
      rintro ⟨-, run', t', hclaim', hfilled⟩
      cases hclaim.symm.trans hclaim'
      exact hfilled
    · next hother =>
      refine ⟨nofun, ?_⟩
      rintro ⟨-, run, t, hclaim, -⟩
      exact absurd hclaim (hother run t)
  · next hregistered => simp [hregistered]

end Environment

end FileIndexing
