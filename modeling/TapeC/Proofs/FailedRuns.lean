import TapeC.Proofs.Build
import TapeC.Proofs.Session

/-!
What a failed run leaves behind.

A run stops early if its arguments are refused, if it does not have one input, if the
input cannot be read or if the brackets of the input are not in order.  Each of these is
found out before the first file is written and before a compiler is started, so an early
stop leaves nothing behind (`failed_runs_leave_nothing`).  A subcommand has only one
effect, and it comes last: what makes a subcommand fail before it leaves nothing behind
either.  Two failures come later than that, a C text that its device could not take
whole, and whatever goes wrong in the compile run of a build.
-/

namespace TapeC
namespace CommandLine

/-- The run has changed no file, printed nothing on standard output and started no
compiler. -/
structure LeavesNothing (w : Workspace) (e : Exit) : Prop where
  tree : e.tree = w.tree
  stdout : e.stdout = []
  started : e.started = false

theorem leavesNothing_failed (w : Workspace) (stderr : Text) (f : Failure Problem) :
    LeavesNothing w (.failed w.tree stderr f) := ⟨rfl, rfl, rfl⟩

/-- A request that has to fail before anything is written. -/
inductive StopsEarly (w : Workspace) (r : Request) : Prop where
  | inputs (h : r.inputs.length ≠ 1)
  | unreadable {name : Text} {e : FileError} (hinput : r.inputs = [name])
      (h : w.readFile name = .error e)
  | unbalanced {name text : Text} (hinput : r.inputs = [name]) (hread : w.readFile name = .ok text)
      (h : (Listing.ofText r.settings.prelude text).wellFormed = false)

/-- The analysis of the brackets is the last of the early stops. -/
theorem StopsEarly.wellFormed {w : Workspace} {r : Request} (h : StopsEarly w r) {name text : Text}
    (hinput : r.inputs = [name]) (hread : w.readFile name = .ok text) :
    (Listing.ofText r.settings.prelude text).wellFormed = false := by
  cases h with
  | inputs hlength => exact absurd (by rw [hinput]; rfl) hlength
  | unreadable hinput' hunread =>
    obtain rfl := List.singleton_inj.1 (hinput.symm.trans hinput')
    cases hread.symm.trans hunread
  | unbalanced hinput' hread' hbad =>
    obtain rfl := List.singleton_inj.1 (hinput.symm.trans hinput')
    obtain rfl := Except.ok.inj (hread.symm.trans hread')
    exact hbad

/-- A C text was to be stored, and its output was opened, but the device took only a
beginning of the text.  That is now in the output; nothing else has changed. -/
inductive CutShort (w : Workspace) (r : Request) (e : Exit) : Prop where
  | intro {name text : Text} {p : Path} (hinput : r.inputs = [name])
      (hread : w.readFile name = .ok text)
      (hgood : (Listing.ofText r.settings.prelude text).wellFormed = true)
      (hout : r.settings.output ≠ []) (htarget : w.tree.target w.home r.settings.output = .ok p)
      (htaken : w.tree.taken p (Listing.ofText r.settings.prelude text).code ≠
        (Listing.ofText r.settings.prelude text).code)
      (htree : e.tree =
        w.tree.write p (w.tree.taken p (Listing.ofText r.settings.prelude text).code))
      (hstdout : e.stdout = []) (hstarted : e.started = false)

/-! ## Where a run can fail -/

section

variable {w : Workspace} {r : Request} {name : Text}

theorem runEmit_of_status {sink : Sink} (hinput : r.inputs = [name])
    (h : (runEmit w sink r.settings name).status ≠ 0) :
    LeavesNothing w (runEmit w sink r.settings name) ∨
      CutShort w r (runEmit w sink r.settings name) := by
  rcases runEmit_cases w sink r.settings name with
    ⟨f, hend⟩ | ⟨text, hread, hgood, ⟨_, hend⟩ | ⟨hout, q, _, hq, rfl, hend⟩⟩
  · rw [hend]
    exact Or.inl (leavesNothing_failed w [] f)
  · rw [hend] at h
    exact absurd rfl h
  · split at hend
    · rw [hend] at h
      exact absurd rfl h
    · next htaken =>
      obtain ⟨f, hend⟩ := hend
      rw [hend]
      exact Or.inr (.intro hinput hread hgood hout hq htaken rfl rfl rfl)

theorem runFilter_of_status {sink : Sink} {s : Settings}
    (h : (runFilter w sink s name).status ≠ 0) :
    ∃ stderr f, runFilter w sink s name = .failed w.tree stderr f := by
  cases hread : w.readFile name with
  | error e =>
    obtain ⟨f, hend⟩ := runFilter_of_readFile_error hread sink s
    exact ⟨[], f, hend⟩
  | ok text =>
    cases sink with
    | working => exact absurd ((status_runFilter_iff _ s).2 ⟨⟨text, hread⟩, rfl⟩) h
    | full => exact runFilter_full hread s

theorem leavesNothing_runBuild {s : Settings} {f : Failure Cause}
    (h : w.build false name s.output s.prelude s.compileOptions = .refused w.tree f)
    (sink : Sink) :
    (runBuild w sink s name).status ≠ 0 ∧ LeavesNothing w (runBuild w sink s name) := by
  have hsilent : sink.deliver [] = [] := by cases sink <;> rfl
  simp only [runBuild, h, Outcome.refused]
  exact ⟨status_failed _ _ _, rfl, hsilent, rfl⟩

theorem StopsEarly.leavesNothing (h : StopsEarly w r) (hcommand : r.command ≠ .filter)
    (sink : Sink) :
    (perform w sink r).status ≠ 0 ∧ LeavesNothing w (perform w sink r) := by
  rcases perform_cases w sink r with ⟨name, hinput⟩ | ⟨f, hend⟩
  · rw [perform_of_input hinput]
    cases hc : r.command with
    | filter => exact absurd hc hcommand
    | emit =>
      rcases runEmit_cases w sink r.settings name with ⟨f, hend⟩ | ⟨text, hread, hgood, _⟩
      · simp only [hend]
        exact ⟨status_failed _ _ _, leavesNothing_failed w [] f⟩
      · rw [h.wellFormed hinput hread] at hgood
        cases hgood
    | build =>
      cases hread : w.readFile name with
      | error e => exact leavesNothing_runBuild (Workspace.build_of_readFile_error hread _ _ _ _) sink
      | ok text =>
        obtain ⟨f, hbuild, _⟩ := Workspace.build_of_malformed hread (h.wellFormed hinput hread)
          false r.settings.output r.settings.compileOptions
        exact leavesNothing_runBuild hbuild sink
  · rw [hend]
    exact ⟨status_failed _ _ _, leavesNothing_failed w [] f⟩

theorem perform_emit_of_status {sink : Sink} (hcommand : r.command = .emit)
    (h : (perform w sink r).status ≠ 0) :
    LeavesNothing w (perform w sink r) ∨ CutShort w r (perform w sink r) := by
  rcases perform_cases w sink r with ⟨name, hinput⟩ | ⟨f, hend⟩
  · rw [perform_of_input hinput, hcommand] at h ⊢
    exact runEmit_of_status hinput h
  · rw [hend]
    exact Or.inl (leavesNothing_failed w [] f)

theorem perform_filter_of_status {sink : Sink} (hcommand : r.command = .filter)
    (h : (perform w sink r).status ≠ 0) : LeavesNothing w (perform w sink r) := by
  rcases perform_cases w sink r with ⟨name, hinput⟩ | ⟨f, hend⟩
  · rw [perform_of_input hinput, hcommand] at h ⊢
    obtain ⟨stderr, f, hend⟩ := runFilter_of_status h
    simp only [hend]
    exact leavesNothing_failed w stderr f
  · rw [hend]
    exact leavesNothing_failed w [] f

theorem tree_perform_filter (hcommand : r.command = .filter) (sink : Sink) :
    (perform w sink r).tree = w.tree ∧ (perform w sink r).started = false := by
  rcases perform_cases w sink r with ⟨name, hinput⟩ | ⟨f, hend⟩
  · rw [perform_of_input hinput, hcommand]
    exact tree_runFilter w sink r.settings name
  · rw [hend]
    exact ⟨rfl, rfl⟩

end

/-! ## Whole runs -/

/-- Refused arguments and early stops leave nothing behind, and their status shows that
they failed.  A filter that fails leaves nothing behind, and it changes no file even if it
succeeds.  A C text that is not delivered leaves nothing behind either, unless storing it
was cut short. -/
theorem failed_runs_leave_nothing (w : Workspace) (sink : Sink) (args : List Text) :
    (∀ f, Request.ofArguments args = .error f →
      (run w sink args).status ≠ 0 ∧ LeavesNothing w (run w sink args)) ∧
    ∀ r, Request.ofArguments args = .ok r →
      (r.command = .filter →
        (run w sink args).tree = w.tree ∧ (run w sink args).started = false ∧
          ((run w sink args).status ≠ 0 → LeavesNothing w (run w sink args))) ∧
      (r.command = .emit → (run w sink args).status ≠ 0 →
        LeavesNothing w (run w sink args) ∨ CutShort w r (run w sink args)) ∧
      (r.command ≠ .filter → StopsEarly w r →
        (run w sink args).status ≠ 0 ∧ LeavesNothing w (run w sink args)) := by
  constructor
  · intro f h
    rw [run, h]
    exact ⟨status_failed _ _ _, leavesNothing_failed w [] _⟩
  · intro r h
    rw [run, h]
    refine ⟨fun hcommand => ?_, perform_emit_of_status, fun hcommand hstops =>
      hstops.leavesNothing hcommand sink⟩
    obtain ⟨htree, hstarted⟩ := tree_perform_filter (w := w) hcommand sink
    exact ⟨htree, hstarted, perform_filter_of_status hcommand⟩

/-- A file with two brackets too many that is to be stored, or built, over itself, and an
argument list that is refused inside the filter. -/
theorem failed_runs_leave_nothing_overwriting :
    let w := (Workspace.fresh [Text.ascii "w"] 0).put (Text.ascii "a") (Text.ascii "x]+[")
    let output := [Text.ascii "-o", Text.ascii "a", Text.ascii "a"]
    let refused := [Text.ascii "filter", Text.ascii "a", Text.ascii "--cells"]
    (run w .working (Text.ascii "translate" :: output)).tree.readFile w.home (Text.ascii "a") =
      .ok (Text.ascii "x]+[") ∧
    LeavesNothing w (run w .working output) ∧
    LeavesNothing w (run w .working refused) ∧
    (run w .working [Text.ascii "filter", Text.ascii "a"]).tree = w.tree := by
  intro w output refused
  have hread : w.readFile (Text.ascii "a") = .ok (Text.ascii "x]+[") := rfl
  have hstored := (((failed_runs_leave_nothing w .working (Text.ascii "translate" :: output)).2
    _ rfl).2.2 (by decide) (.unbalanced rfl hread (by decide))).2
  refine ⟨?_, ?_, ?_, ?_⟩
  · rw [hstored.tree]
    exact hread
  · exact (((failed_runs_leave_nothing w .working output).2 _ rfl).2.2 (by decide)
      (.unbalanced rfl hread (by decide))).2
  · exact ((failed_runs_leave_nothing w .working refused).1 _ rfl).2
  · exact (((failed_runs_leave_nothing w .working _).2 _ rfl).1 rfl).1

/-- A C text that is to be stored over its own program, on a device without room: the run
fails, and the program is gone. -/
theorem failed_store_truncates :
    let w := (Workspace.fresh [Text.ascii "w"] 0).put (Text.ascii "a") (Text.ascii "+")
    let full := { w with tree := { w.tree with devices := [⟨[Text.ascii "w"], 0⟩] } }
    let e := run full .working
      [Text.ascii "translate", Text.ascii "-o", Text.ascii "a", Text.ascii "a"]
    e.status = 1 ∧ (full.readFile (Text.ascii "a")).toOption = some (Text.ascii "+") ∧
      (e.tree.readFile w.home (Text.ascii "a")).toOption = some [] := by
  intro w full e
  exact ⟨by decide +kernel, by decide +kernel, by decide +kernel⟩

end CommandLine
end TapeC
