import TapeC.Build
import TapeC.Proofs.TempFile

/-!
What a build does, stage by stage.

Reading and the bracket analysis come first, and if either has something to say the
build ends there: nothing was run and the tree is the one it started from.  After
them a build is a compile run under one more note.  With a compiler that copies its
input, the run hands the C text over to the output file, since the temporary file
in between is read back as it was written and is not taken for the output
(`readFile_compile_copy`).
-/

namespace TapeC

/-! ## What a compiler does -/

namespace Tool

/-- A copy is made, or it fails with status seven.  A copy that fails may have begun to
write. -/
theorem copyFile_cases (w : Workspace) (source out : Text) :
    (∃ content tree, w.readFile source = .ok content ∧
      w.tree.sameFile w.home source out = false ∧
      w.tree.writeFile w.home out content = .ok tree ∧
      copyFile w source out = ⟨0, [], [], tree⟩) ∨
    ∃ tree, copyFile w source out = ⟨7, [], [], tree⟩ ∧
      (tree = w.tree ∨
        ∃ q content, w.tree.target w.home out = .ok q ∧ tree = w.tree.write q content) := by
  cases hread : w.readFile source with
  | error e => exact Or.inr ⟨w.tree, by simp [copyFile, hread], Or.inl rfl⟩
  | ok content =>
    cases hsame : w.tree.sameFile w.home source out with
    | true => exact Or.inr ⟨w.tree, by simp [copyFile, hread, hsame], Or.inl rfl⟩
    | false =>
      rcases w.tree.writeFile_cases w.home out content with
        ⟨_, _, hfail⟩ | ⟨q, hq, ⟨_, hok⟩ | ⟨_, hfail⟩⟩
      · exact Or.inr ⟨w.tree, by simp [copyFile, hread, hsame, hfail], Or.inl rfl⟩
      · exact Or.inl ⟨content, _, rfl, rfl, hok, by simp [copyFile, hread, hsame, hok]⟩
      · exact Or.inr ⟨w.tree.write q (w.tree.taken q content),
          by simp [copyFile, hread, hsame, hfail], Or.inr ⟨q, _, hq, rfl⟩⟩

/-- The three things that a tool can do to the tree: nothing, write the output, or
remove its source. -/
theorem tree_run_cases (tool : Tool) (w : Workspace) (source out : Text) (extra : List Text) :
    (tool.run w (arguments source out extra)).tree = w.tree ∨
    (∃ q content, w.tree.target w.home out = .ok q ∧
      (tool.run w (arguments source out extra)).tree = w.tree.write q content) ∨
    ∃ p, w.tree.find w.home source = .ok p ∧
      (tool.run w (arguments source out extra)).tree = w.tree.erase p := by
  cases tool with
  | copy =>
    show (copyFile w source out).tree = _ ∨ (∃ q content, _ ∧ (copyFile w source out).tree = _) ∨ _
    rcases copyFile_cases w source out with
      ⟨content, tree, _, _, hwrite, hcopy⟩ | ⟨tree, hcopy, hsame | ⟨q, content, hq, hwrite⟩⟩
    · obtain ⟨q, hq, _, hwritten⟩ := FileTree.exists_of_writeFile hwrite
      rw [hcopy]
      exact Or.inr (Or.inl ⟨q, content, hq, hwritten⟩)
    · rw [hcopy]
      exact Or.inl hsame
    · rw [hcopy]
      exact Or.inr (Or.inl ⟨q, content, hq, hwrite⟩)
  | removeSource =>
    cases hfind : w.tree.find w.home source with
    | error reason => exact Or.inl (by simp [run, arguments, FileTree.removeFile, hfind])
    | ok p =>
      exact Or.inr (Or.inr ⟨p, rfl, by simp [run, arguments, FileTree.removeFile, hfind]⟩)
  | _ => exact Or.inl rfl

/-- A run under a limit has done what the tool does, or nothing. -/
theorem tree_runUntil (e : Expiry) (w : Workspace) (args : List Text) (tool : Tool) :
    (tool.runUntil e w args).tree = (tool.run w args).tree ∨
      (tool.runUntil e w args).tree = w.tree := by
  cases e with
  | duringRun done =>
    cases done with
    | true => exact Or.inl rfl
    | false => exact Or.inr rfl
  | _ => exact Or.inl rfl

/-- A run that ends with status zero was not cut off. -/
theorem runUntil_of_status {e : Expiry} {w : Workspace} {args : List Text} {tool : Tool}
    (h : (tool.runUntil e w args).status = 0) : tool.runUntil e w args = tool.run w args := by
  cases e with
  | duringRun done =>
    have hkilled : (tool.runUntil (.duringRun done) w args).status = -1 := by
      cases done with
      | true => rfl
      | false => rfl
    rw [hkilled] at h
    exact absurd h (by decide)
  | _ => rfl

end Tool

/-! ## Compile runs -/

namespace Workspace

variable {w : Workspace} {o : CompileOptions} {p : Executable} {args : List Text}

theorem invoke_canceled (w : Workspace) (o : CompileOptions) (p : Executable) (args : List Text) :
    w.invoke true o p args =
      .refused w.tree ⟨[Text.ascii "run " ++ o.compilerName], .canceled⟩ := rfl

theorem invoke_of_late (h : w.expiry o p.tool args = .beforeStart) :
    w.invoke false o p args =
      .refused w.tree ⟨[Text.ascii "run " ++ o.compilerName], .deadlineExceeded⟩ := by
  simp only [invoke, h]
  rfl

theorem invoke_of_refusal (h : w.expiry o p.tool args ≠ .beforeStart) {reason : SystemError}
    (hstart : p.tool.startRefusal? args = some reason) :
    w.invoke false o p args =
      .refused w.tree ⟨[Text.ascii "run " ++ o.compilerName],
        .file ⟨.starting, p.path, reason⟩⟩ := by
  simp only [invoke, hstart, if_neg h]
  rfl

theorem invoke_of_start (h : w.expiry o p.tool args ≠ .beforeStart)
    (hstart : p.tool.startRefusal? args = none) {r : Tool.Run}
    (hr : r = p.tool.runUntil (w.expiry o p.tool args) w args) :
    w.invoke false o p args = ⟨r.tree, r.stdout, r.stderr, true,
      if r.status = 0 then none
      else if w.expiry o p.tool args ≠ .never then
        some ⟨[Text.ascii "run " ++ o.compilerName], .deadlineExceeded⟩
      else some ⟨[], .exitStatus o.compilerName r.status⟩⟩ := by
  simp only [invoke, hstart, if_neg h, hr]
  rfl

/-- A compiler is not started, or it runs as far as its limit lets it. -/
theorem invoke_cases (w : Workspace) (canceled : Bool) (o : CompileOptions) (p : Executable)
    (args : List Text) {r : Tool.Run}
    (hr : r = p.tool.runUntil (w.expiry o p.tool args) w args) :
    (∃ f, w.invoke canceled o p args = .refused w.tree f) ∨
    ∃ f, w.invoke canceled o p args = ⟨r.tree, r.stdout, r.stderr, true, f⟩ ∧
      (f = none → r.status = 0) := by
  cases canceled with
  | true => exact Or.inl ⟨_, invoke_canceled w o p args⟩
  | false =>
    by_cases hlate : w.expiry o p.tool args = .beforeStart
    · exact Or.inl ⟨_, invoke_of_late hlate⟩
    cases hstart : p.tool.startRefusal? args with
    | some reason => exact Or.inl ⟨_, invoke_of_refusal hlate hstart⟩
    | none =>
      refine Or.inr ⟨_, invoke_of_start hlate hstart hr, fun hnone => ?_⟩
      by_contra hstatus
      rw [if_neg hstatus] at hnone
      split at hnone
      · cases hnone
      · cases hnone

theorem invoke_of_failure_none {canceled : Bool}
    (h : (w.invoke canceled o p args).failure = none) :
    (p.tool.run w args).status = 0 ∧
      (w.invoke canceled o p args).tree = (p.tool.run w args).tree := by
  rcases w.invoke_cases canceled o p args rfl with ⟨f, hrefused⟩ | ⟨f, hran, hstatus⟩
  · rw [hrefused] at h
    cases h
  · rw [hran] at h ⊢
    have hzero := hstatus h
    have hwhole := Tool.runUntil_of_status hzero
    rw [hwhole] at hzero ⊢
    exact ⟨hzero, rfl⟩

theorem discard_of_failure_none {home : Path} {source : Text} {o : Outcome}
    (h : (discard home source o).failure = none) :
    o.failure = none ∧ o.tree.removeFile home source = .ok (discard home source o).tree := by
  cases hremove : o.tree.removeFile home source with
  | error e => simp [discard, hremove] at h
  | ok tree =>
    simp only [discard, hremove] at h
    refine ⟨h, ?_⟩
    simp only [discard, hremove]

/-- The directory in which a compile run creates its temporary file. -/
def sourceDir (w : Workspace) (o : CompileOptions) : Text :=
  if o.tempDir.isEmpty then w.tempDir else o.tempDir

theorem compile_of_create_error {code : Text} {compiler : Executable} {e : FileError}
    (hlookup : w.lookup o.compilerName = .ok compiler)
    (hcreate : TempFile.create w.seed w.tree w.home (w.sourceDir o) = .error e)
    (canceled : Bool) (out : Text) :
    w.compile canceled code out o =
      .refused w.tree ⟨[Text.ascii "create temp file"], .file e⟩ := by
  unfold sourceDir at hcreate
  simp only [compile, hlookup, hcreate]
  rfl

theorem compile_of_create {code : Text} {compiler : Executable} {source : TempFile.Created}
    (hlookup : w.lookup o.compilerName = .ok compiler)
    (hcreate : TempFile.create w.seed w.tree w.home (w.sourceDir o) = .ok source)
    (canceled : Bool) (out : Text) :
    w.compile canceled code out o =
      if o.keepTemp then w.runOn canceled o compiler source code out
      else discard w.home source.name (w.runOn canceled o compiler source code out) := by
  unfold sourceDir at hcreate
  simp only [compile, hlookup, hcreate]

theorem runOn_of_taken {source : TempFile.Created} {code : Text}
    (hsource : source.IsNewIn w.tree w.home) (htaken : w.tree.taken source.path code = code)
    (canceled : Bool) (o : CompileOptions) (compiler : Executable) (out : Text) :
    w.runOn canceled o compiler source code out =
      Workspace.invoke { w with tree := w.tree.set source.path (.file code) } canceled o compiler
        (Tool.arguments source.name out o.extra) := by
  simp only [runOn, hsource.fill_of_taken htaken]

theorem runOn_of_not_taken {source : TempFile.Created} {code : Text}
    (hsource : source.IsNewIn w.tree w.home) (htaken : w.tree.taken source.path code ≠ code)
    (canceled : Bool) (o : CompileOptions) (compiler : Executable) (out : Text) :
    w.runOn canceled o compiler source code out =
      .refused (w.tree.set source.path (.file (w.tree.taken source.path code)))
        ⟨[Text.ascii "write temp file"], .file ⟨.writing, source.name, .noSpace⟩⟩ := by
  simp only [runOn, hsource.fill_of_not_taken htaken]
  rfl

/-! ## What a copying compiler leaves -/

/-- A copying run without a failure has written to the output what its source holds, and
the output is not the source. -/
theorem exists_of_invoke_copy {canceled : Bool} {path source out : Text} {extra : List Text}
    (h : (w.invoke canceled o ⟨path, .copy⟩ (Tool.arguments source out extra)).failure = none) :
    ∃ content q, w.readFile source = .ok content ∧
      w.tree.sameFile w.home source out = false ∧ w.tree.target w.home out = .ok q ∧
      (w.invoke canceled o ⟨path, .copy⟩ (Tool.arguments source out extra)).tree =
        w.tree.write q content := by
  obtain ⟨hstatus, htree⟩ := invoke_of_failure_none h
  rw [htree]
  show ∃ content q, _ ∧ _ ∧ _ ∧ (Tool.copyFile w source out).tree = _
  rcases Tool.copyFile_cases w source out with
    ⟨content, tree, hread, hsame, hwrite, hcopy⟩ | ⟨tree, hcopy, _⟩
  · obtain ⟨q, hq, _, hwritten⟩ := FileTree.exists_of_writeFile hwrite
    rw [hcopy]
    exact ⟨content, q, hread, hsame, hq, hwritten⟩
  · have hseven : (Tool.copyFile w source out).status = 0 := hstatus
    rw [hcopy] at hseven
    cases hseven

/-- A copying compiler that succeeds leaves the C text in the output file.  The output
is not the temporary file, which is removed at the end of the run. -/
theorem readFile_compile_copy {canceled : Bool} {code out path : Text}
    (hlookup : w.lookup o.compilerName = .ok ⟨path, .copy⟩)
    (hok : (w.compile canceled code out o).failure = none) :
    (w.compile canceled code out o).tree.readFile w.home out = .ok code := by
  cases hcreate : TempFile.create w.seed w.tree w.home (w.sourceDir o) with
  | error e =>
    rw [compile_of_create_error hlookup hcreate] at hok
    cases hok
  | ok source =>
    have hnew := TempFile.isNewIn_of_create hcreate
    have hdir := FileTree.not_isDirectory_of_target hnew.target
    have hplaced := FileTree.sameDirectories_set (e := .file code) hdir rfl
    have hsource := FileTree.readFile_set hnew.target code
    rw [compile_of_create hlookup hcreate] at hok ⊢
    by_cases htaken : w.tree.taken source.path code = code
    · rw [runOn_of_taken hnew htaken] at hok ⊢
      by_cases hkeep : o.keepTemp = true
      · rw [if_pos hkeep] at hok ⊢
        obtain ⟨content, q, hread, _, hq, htree⟩ := exists_of_invoke_copy hok
        obtain rfl : content = code := Except.ok.inj (hread.symm.trans hsource)
        rw [htree]
        exact FileTree.readFile_write hq content
      · rw [if_neg hkeep] at hok ⊢
        obtain ⟨hran, hremove⟩ := discard_of_failure_none hok
        obtain ⟨content, q, hread, hsame, hq, htree⟩ := exists_of_invoke_copy hran
        obtain rfl : content = code := Except.ok.inj (hread.symm.trans hsource)
        have hfound : (w.tree.set source.path (.file content)).find w.home source.name =
            .ok source.path := by
          refine FileTree.find_of_target hplaced hnew.target ?_
          rw [FileTree.get?_set_self _ hnew.ne_nil]
          rfl
        have hne : q ≠ source.path := by
          rintro rfl
          rw [FileTree.sameFile, hfound, hq] at hsame
          simp at hsame
        obtain ⟨p', hp', hgone⟩ := FileTree.exists_of_removeFile hremove
        have hstill := FileTree.find_write_set (e := .file content) hnew.target rfl
          (FileTree.not_isDirectory_of_target hq) hne content
        rw [htree] at hp' hgone
        obtain rfl : p' = source.path := Except.ok.inj (hp'.symm.trans hstill)
        rw [hgone]
        refine FileTree.readFile_erase_write hq ?_ hne content
        rw [← hplaced source.path]
        exact hdir
    · rw [runOn_of_not_taken hnew htaken] at hok
      by_cases hkeep : o.keepTemp = true
      · rw [if_pos hkeep] at hok
        cases hok
      · rw [if_neg hkeep] at hok
        cases (discard_of_failure_none hok).1

/-! ## Builds -/

theorem build_of_readFile_error {w : Workspace} {name : Text} {e : FileError}
    (h : w.readFile name = .error e) (canceled : Bool) (out : Text) (p : Prelude)
    (o : CompileOptions) :
    w.build canceled name out p o = .refused w.tree
      (((Failure.of (.file e)).within (Text.ascii "read file")).within
        (Text.ascii "translate")) := by
  simp only [build, load, h]

theorem build_of_malformed {w : Workspace} {name text : Text} {p : Prelude}
    (h : w.readFile name = .ok text) (hbad : (Listing.ofText p text).wellFormed = false)
    (canceled : Bool) (out : Text) (o : CompileOptions) :
    ∃ f, w.build canceled name out p o = .refused w.tree f ∧
      f.cause = .unbalanced ((Listing.ofText p text).unmatched.map Int.ofNat) := by
  have hfault : (Listing.ofText p text).fault? =
      some (.unbalanced ((Listing.ofText p text).unmatched.map Int.ofNat)) := by
    rw [Listing.fault?, hbad]
    rfl
  simp only [build, load, h, Diagnostic.report, hfault, Option.map_some]
  refine ⟨_, rfl, ?_⟩
  rw [Failure.cause_within, Failure.cause_within]
  rfl

theorem build_of_wellFormed {w : Workspace} {name text : Text} {p : Prelude}
    (h : w.readFile name = .ok text) (hgood : (Listing.ofText p text).wellFormed = true)
    (canceled : Bool) (out : Text) (o : CompileOptions) :
    w.build canceled name out p o =
      (w.compile canceled (Listing.ofText p text).code
        (if out.isEmpty then defaultOutput else out) o).within (Text.ascii "compile") := by
  have hfault : (Listing.ofText p text).fault? = none := by
    rw [Listing.fault?, hgood]
    rfl
  simp only [build, load, h, Diagnostic.report, hfault, Option.map_none]

theorem message_within_compile (f : Failure Cause) :
    (f.within (Text.ascii "compile")).message Cause.message =
      Text.ascii "compile: " ++ f.message Cause.message := by
  rw [Failure.message_within _ _ _ (by decide)]
  rfl

/-- A build is the reading of a file, the bracket analysis as a gate and a compile
run, in this order, and the first to fail hides what comes after.  The last part is
what follows for a compiler that copies: without a failure the output holds the C
text of the file. -/
theorem build_eq_gate_then_compile (w : Workspace) (canceled : Bool) (name out : Text)
    (p : Prelude) (o : CompileOptions) :
    (∀ e, w.readFile name = .error e →
      ∃ f, w.build canceled name out p o = ⟨w.tree, [], [], false, some f⟩ ∧
        f.cause = .file e) ∧
    (∀ text, w.readFile name = .ok text → (Listing.ofText p text).wellFormed = false →
      ∃ f, w.build canceled name out p o = ⟨w.tree, [], [], false, some f⟩ ∧
        f.cause = .unbalanced ((Listing.ofText p text).unmatched.map Int.ofNat)) ∧
    (∀ text built compiled, w.readFile name = .ok text →
      (Listing.ofText p text).wellFormed = true →
      built = w.build canceled name out p o →
      compiled = w.compile canceled (Listing.ofText p text).code
        (if out = [] then Text.ascii "a.out" else out) o →
      built.tree = compiled.tree ∧ built.stdout = compiled.stdout ∧
        built.stderr = compiled.stderr ∧ built.started = compiled.started ∧
        built.failure.map Failure.cause = compiled.failure.map Failure.cause ∧
        built.failure.map (Failure.message Cause.message) =
          compiled.failure.map fun f => Text.ascii "compile: " ++ f.message Cause.message) ∧
    (∀ path, w.lookup o.compilerName = .ok ⟨path, .copy⟩ →
      (w.build canceled name out p o).failure = none →
      ∃ text, w.readFile name = .ok text ∧
        (w.build canceled name out p o).tree.readFile w.home
          (if out = [] then Text.ascii "a.out" else out) =
            .ok (CText.render p (Source.filtered text))) := by
  have hout : (if out.isEmpty then defaultOutput else out) =
      if out = [] then Text.ascii "a.out" else out := by
    cases out with
    | nil => rfl
    | cons _ _ => rfl
  refine ⟨?_, ?_, ?_, ?_⟩
  · intro e hread
    refine ⟨_, build_of_readFile_error hread canceled out p o, ?_⟩
    rw [Failure.cause_within, Failure.cause_within]
    rfl
  · intro text hread hbad
    exact build_of_malformed hread hbad canceled out o
  · intro text built compiled hread hgood hbuilt hcompiled
    subst hbuilt hcompiled
    rw [build_of_wellFormed hread hgood, hout, Outcome.within]
    refine ⟨rfl, rfl, rfl, rfl, ?_, ?_⟩
    · rw [Option.map_map]
      exact congrArg (Option.map · _) (funext (Failure.cause_within _))
    · rw [Option.map_map]
      exact congrArg (Option.map · _) (funext message_within_compile)
  · intro path hlookup hok
    cases hread : w.readFile name with
    | error e =>
      rw [build_of_readFile_error hread] at hok
      exact absurd hok (by simp [Outcome.refused])
    | ok text =>
      refine ⟨text, rfl, ?_⟩
      cases hgood : (Listing.ofText p text).wellFormed with
      | false =>
        obtain ⟨f, hbuild, _⟩ := build_of_malformed hread hgood canceled out o
        rw [hbuild] at hok
        exact absurd hok (by simp [Outcome.refused])
      | true =>
        rw [build_of_wellFormed hread hgood, hout] at hok ⊢
        exact readFile_compile_copy hlookup (Option.map_eq_none_iff.1 hok)

/-- Three builds in one workspace: of a file that is not there, of a file with two
brackets too many, both canceled and without a compiler, and of a file in order. -/
theorem build_eq_gate_then_compile_three :
    let w := ((fresh [Text.ascii "w"] 0).put (Text.ascii "bad") (Text.ascii "x]+[")).put
      (Text.ascii "good") (Text.ascii "x+[-]")
    let absent : CompileOptions := ⟨Text.ascii "nocc", [], Text.ascii "nodir", false, 1⟩
    let usual : CompileOptions := ⟨[], [], [], false, 0⟩
    (∃ f, w.build true (Text.ascii "none") [] .standard absent = ⟨w.tree, [], [], false, some f⟩ ∧
      f.cause = .file ⟨.opening, Text.ascii "none", .notFound⟩) ∧
    (∃ f, w.build true (Text.ascii "bad") [] .standard absent = ⟨w.tree, [], [], false, some f⟩ ∧
      f.cause = .unbalanced [1, 3]) ∧
    (w.build false (Text.ascii "good") [] .standard usual).tree.readFile w.home
      (Text.ascii "a.out") = .ok (CText.render .standard (Text.ascii "+[-]")) := by
  intro w absent usual
  refine ⟨?_, ?_, ?_⟩
  · exact (build_eq_gate_then_compile w true _ [] .standard absent).1 _ rfl
  · exact (build_eq_gate_then_compile w true _ [] .standard absent).2.1 (Text.ascii "x]+[") rfl
      (by decide)
  · have hlookup : w.lookup usual.compilerName = .ok ⟨Text.ascii "/w/bin/gcc", .copy⟩ := rfl
    obtain ⟨text, hread, hout⟩ :=
      (build_eq_gate_then_compile w false (Text.ascii "good") [] .standard usual).2.2.2 _ hlookup
        (by decide +kernel)
    obtain rfl : Text.ascii "x+[-]" = text := Except.ok.inj hread
    exact hout

end Workspace
end TapeC
