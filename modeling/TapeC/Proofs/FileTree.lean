import TapeC.FileTree

/-!
Names after a change to the tree.

A name is resolved by walking through directories, so where it leads depends on the
directories alone.  Storing a file, or taking one out, leaves the directories as
they are, and a name at which a file can be stored is therefore found again in
every later tree that still holds something there (`find_of_target`).

A write leaves the file with what its device took of the content, whether it goes
through or not (`writeFile_cases`); it goes through just if that is all of it.
-/

namespace TapeC
namespace FileTree

/-! ## Trees with the same directories -/

def SameDirectories (t t' : FileTree) : Prop := ∀ q, t.isDirectory q = t'.isDirectory q

theorem SameDirectories.symm {t t' : FileTree} (h : SameDirectories t t') :
    SameDirectories t' t := fun q => (h q).symm

theorem SameDirectories.trans {t t' t'' : FileTree} (h : SameDirectories t t')
    (h' : SameDirectories t' t'') : SameDirectories t t'' := fun q => (h q).trans (h' q)

theorem ne_nil_of_not_isDirectory {t : FileTree} {p : Path} (hp : t.isDirectory p = false) :
    p ≠ [] := by
  intro hnil
  rw [hnil] at hp
  exact absurd hp (by simp [isDirectory, get?, Entry.isDirectory])

theorem sameDirectories_set {t : FileTree} {p : Path} {e : Entry} (hp : t.isDirectory p = false)
    (he : e.isDirectory = false) : SameDirectories t (t.set p e) := by
  intro q
  by_cases hq : q = p
  · subst hq
    rw [hp, isDirectory, get?_set_self t (ne_nil_of_not_isDirectory hp)]
    exact he.symm
  · rw [isDirectory, isDirectory, get?_set_ne t hq]

theorem sameDirectories_erase {t : FileTree} {p : Path} (hp : t.isDirectory p = false) :
    SameDirectories t (t.erase p) := by
  intro q
  by_cases hq : q = p
  · subst hq
    rw [hp, isDirectory, get?_erase_self t (ne_nil_of_not_isDirectory hp)]
    rfl
  · rw [isDirectory, isDirectory, get?_erase_ne t hq]

theorem isDirectory_overwrite (content : Text) (e : Option Entry) :
    (Entry.overwrite content e).isDirectory = false := by
  unfold Entry.overwrite
  split
  · rfl
  · rfl

theorem content?_overwrite (content : Text) (e : Option Entry) :
    (Entry.overwrite content e).content? = some content := by
  unfold Entry.overwrite
  split
  · rfl
  · rfl

theorem isSome_get?_of_isDirectory {t : FileTree} {p : Path} (h : t.isDirectory p = true) :
    (t.get? p).isSome := by
  cases hget : t.get? p with
  | none =>
    rw [isDirectory, hget] at h
    exact absurd h (by decide)
  | some _ => rfl

/-! ## Walks -/

theorem walk_cons_eq_ok {t : FileTree} {here p : Path} {part : Text} {rest : List Text}
    (h : t.walk here (part :: rest) = .ok p) :
    ∃ next, t.enter here part = .ok next ∧ t.walk next rest = .ok p := by
  rw [walk, List.foldlM_cons] at h
  cases hnext : t.enter here part with
  | error e =>
    rw [hnext] at h
    exact absurd h (by simp [bind, Except.bind])
  | ok next =>
    rw [hnext] at h
    exact ⟨next, rfl, h⟩

theorem walk_concat {t : FileTree} {here dir : Path} {names : List Text}
    (h : t.walk here names = .ok dir) (last : Text) :
    t.walk here (names ++ [last]) = t.enter dir last := by
  rw [walk, List.foldlM_append]
  show (t.walk here names >>= fun p => [last].foldlM t.enter p) = _
  rw [h]
  show (t.enter dir last >>= fun p => pure p) = _
  rw [bind_pure]

theorem isDirectory_of_enter {t : FileTree} {here next : Path} {part : Text}
    (h : t.enter here part = .ok next) : t.isDirectory here = true := by
  by_cases hdir : t.isDirectory here = true
  · exact hdir
  · rw [enter, Bool.eq_false_iff.mpr hdir] at h
    exact absurd h (by simp)

theorem isDirectory_of_walk {t : FileTree} {here p : Path} {names : List Text}
    (h : t.walk here names = .ok p) (hp : t.isDirectory p = true) : t.isDirectory here = true := by
  cases names with
  | nil =>
    obtain rfl : here = p := Except.ok.inj h
    exact hp
  | cons part rest =>
    obtain ⟨next, henter, _⟩ := walk_cons_eq_ok h
    exact isDirectory_of_enter henter

theorem enter_of_sameDirectories {t t' : FileTree} (hdir : SameDirectories t t')
    {here next : Path} {part : Text} (h : t.enter here part = .ok next)
    (hnext : (t'.get? next).isSome) : t'.enter here part = .ok next := by
  have hhere := isDirectory_of_enter h
  rw [enter, hhere] at h
  rw [enter, ← hdir here, hhere]
  by_cases hdot : part = Text.ascii "."
  · simpa [hdot] using h
  by_cases hup : part = Text.ascii ".."
  · simpa [hdot, hup] using h
  by_cases hlong : 255 < part.length
  · simp [hdot, hup, hlong] at h
  by_cases hsome : (t.get? (here ++ [part])).isSome
  · obtain rfl : here ++ [part] = next := by simpa [hdot, hup, hlong, hsome] using h
    simp [hdot, hup, hlong, hnext]
  · simp [hdot, hup, hlong, hsome] at h

/-- A walk that ends in a directory passes through directories only, so it is the
same walk wherever these are. -/
theorem walk_of_sameDirectories {t t' : FileTree} (hdir : SameDirectories t t') {here p : Path}
    {names : List Text} (h : t.walk here names = .ok p) (hp : t.isDirectory p = true) :
    t'.walk here names = .ok p := by
  induction names generalizing here with
  | nil => exact h
  | cons part rest ih =>
    obtain ⟨next, henter, hrest⟩ := walk_cons_eq_ok h
    have hnext := isDirectory_of_walk hrest hp
    rw [hdir next] at hnext
    have henter' := enter_of_sameDirectories hdir henter (isSome_get?_of_isDirectory hnext)
    rw [walk, List.foldlM_cons, henter']
    exact ih hrest

/-! ## Names at which a file can be stored -/

/-- What it takes that a file can be stored under a name, and where it goes. -/
theorem exists_of_target {t : FileTree} {home p : Path} {name : Text}
    (h : t.target home name = .ok p) :
    precheck name = .ok () ∧ isSlashed name = false ∧ t.isDirectory p = false ∧
      ∃ dirs last dir, parts name = dirs ++ [last] ∧ t.walk (origin home name) dirs = .ok dir ∧
        t.isDirectory dir = true ∧ last ≠ Text.ascii "." ∧ last ≠ Text.ascii ".." ∧
        ¬ 255 < last.length ∧ p = dir ++ [last] := by
  cases hpre : precheck name with
  | error e => simp [target, hpre, bind, Except.bind] at h
  | ok _ =>
    cases hlast : (parts name).getLast? with
    | none => simp [target, hpre, hlast, bind, Except.bind] at h
    | some last =>
      cases hwalk : t.walk (origin home name) (parts name).dropLast with
      | error e => simp [target, hpre, hlast, hwalk, bind, Except.bind] at h
      | ok dir =>
        have hparts : parts name = (parts name).dropLast ++ [last] := by
          obtain ⟨ys, hys⟩ := List.getLast?_eq_some_iff.1 hlast
          rw [hys, List.dropLast_concat]
        simp only [target, hpre, hlast, hwalk, bind, Except.bind] at h
        by_cases hdir : t.isDirectory dir = true
        · by_cases hend : (isSlashed name || last = Text.ascii "." || last = Text.ascii "..") = true
          · simp [hdir, hend] at h
          · by_cases hlong : 255 < last.length
            · simp [hdir, hend, hlong] at h
            · by_cases hthere : t.isDirectory (dir ++ [last]) = true
              · simp [hdir, hend, hlong, hthere] at h
              · obtain rfl : dir ++ [last] = p := by
                  simpa [hdir, hend, hlong, hthere] using h
                simp only [Bool.or_eq_true, decide_eq_true_eq, not_or] at hend
                exact ⟨rfl, Bool.eq_false_iff.mpr hend.1.1, Bool.eq_false_iff.mpr hthere,
                  _, last, dir, hparts, hwalk, hdir, hend.1.2, hend.2, hlong, rfl⟩
        · simp [hdir] at h

theorem not_isDirectory_of_target {t : FileTree} {home p : Path} {name : Text}
    (h : t.target home name = .ok p) : t.isDirectory p = false := (exists_of_target h).2.2.1

theorem target_of_sameDirectories {t t' : FileTree} (hdir : SameDirectories t t')
    {home p : Path} {name : Text} (h : t.target home name = .ok p) :
    t'.target home name = .ok p := by
  obtain ⟨hpre, hslash, hp, dirs, last, dir, hparts, hwalk, hd, hdot, hup, hlong, rfl⟩ :=
    exists_of_target h
  have hlast : (parts name).getLast? = some last := by rw [hparts, List.getLast?_concat]
  have hdirs : (parts name).dropLast = dirs := by rw [hparts, List.dropLast_concat]
  have hwalk' := walk_of_sameDirectories hdir hwalk hd
  rw [hdir] at hd hp
  simp only [target, hpre, hlast, hdirs, hwalk', bind, Except.bind]
  simp [hd, hslash, hdot, hup, hlong, hp]

theorem find_of_target {t t' : FileTree} (hdir : SameDirectories t t') {home p : Path}
    {name : Text} (h : t.target home name = .ok p) (hsome : (t'.get? p).isSome) :
    t'.find home name = .ok p := by
  obtain ⟨hpre, hslash, _, dirs, last, dir, hparts, hwalk, hd, hdot, hup, hlong, rfl⟩ :=
    exists_of_target h
  have henter : t'.enter dir last = .ok (dir ++ [last]) := by
    rw [enter, ← hdir dir, hd]
    simp [hdot, hup, hlong, hsome]
  have hwalk' : t'.walk (origin home name) (parts name) = .ok (dir ++ [last]) := by
    rw [hparts, walk_concat (walk_of_sameDirectories hdir hwalk hd), henter]
  simp [find, hpre, hwalk', hslash, bind, Except.bind]

theorem readFile_of_target {t t' : FileTree} (hdir : SameDirectories t t') {home p : Path}
    {name content : Text} {e : Entry} (h : t.target home name = .ok p)
    (hget : t'.get? p = some e) (hcontent : e.content? = some content) :
    t'.readFile home name = .ok content := by
  have hfind : t'.find home name = .ok p := find_of_target hdir h (by rw [hget]; rfl)
  simp only [readFile, hfind, hget, Option.bind_some, hcontent]

/-! ## Files stored and taken out by name -/

theorem taken_prefix (t : FileTree) (p : Path) (content : Text) : t.taken p content <+: content := by
  unfold taken
  split
  · exact List.take_prefix _ _
  · exact List.prefix_rfl

theorem taken_of_no_devices {t : FileTree} (h : t.devices = []) (p : Path) (content : Text) :
    t.taken p content = content := by
  rw [taken, h]
  rfl

theorem fill_of_taken {t : FileTree} {p : Path} {content : Text} (h : t.taken p content = content)
    (name : Text) : t.fill p name content = .ok (t.write p content) := by
  rw [fill, if_pos h, h]

theorem fill_of_not_taken {t : FileTree} {p : Path} {content : Text}
    (h : t.taken p content ≠ content) (name : Text) :
    t.fill p name content =
      .error ⟨⟨.writing, name, .noSpace⟩, t.write p (t.taken p content)⟩ := by
  rw [fill, if_neg h]

/-- The three ways in which a file is written. -/
theorem writeFile_cases (t : FileTree) (home : Path) (name content : Text) :
    (∃ reason, t.target home name = .error reason ∧
      t.writeFile home name content = .error ⟨⟨.opening, name, reason⟩, t⟩) ∨
    ∃ p, t.target home name = .ok p ∧
      (t.taken p content = content ∧
          t.writeFile home name content = .ok (t.write p content) ∨
        t.taken p content ≠ content ∧
          t.writeFile home name content =
            .error ⟨⟨.writing, name, .noSpace⟩, t.write p (t.taken p content)⟩) := by
  cases htarget : t.target home name with
  | error reason => exact Or.inl ⟨reason, rfl, by rw [writeFile, htarget]⟩
  | ok p =>
    refine Or.inr ⟨p, rfl, ?_⟩
    have hwrite : t.writeFile home name content = t.fill p name content := by
      rw [writeFile, htarget]
    by_cases h : t.taken p content = content
    · exact Or.inl ⟨h, hwrite.trans (fill_of_taken h name)⟩
    · exact Or.inr ⟨h, hwrite.trans (fill_of_not_taken h name)⟩

theorem exists_of_writeFile {t t' : FileTree} {home : Path} {name content : Text}
    (h : t.writeFile home name content = .ok t') :
    ∃ p, t.target home name = .ok p ∧ t.taken p content = content ∧ t' = t.write p content := by
  rcases t.writeFile_cases home name content with
    ⟨_, _, hfail⟩ | ⟨p, htarget, ⟨htaken, hok⟩ | ⟨_, hfail⟩⟩
  · rw [hfail] at h
    cases h
  · exact ⟨p, htarget, htaken, Except.ok.inj (h.symm.trans hok)⟩
  · rw [hfail] at h
    cases h

theorem writeFile_of_target {t : FileTree} {home p : Path} {name content : Text}
    (h : t.target home name = .ok p) (htaken : t.taken p content = content) :
    t.writeFile home name content = .ok (t.write p content) := by
  rw [writeFile, h]
  exact fill_of_taken htaken name

theorem exists_of_removeFile {t t' : FileTree} {home : Path} {name : Text}
    (h : t.removeFile home name = .ok t') :
    ∃ p, t.find home name = .ok p ∧ t' = t.erase p := by
  cases hfind : t.find home name with
  | error e => simp [removeFile, hfind] at h
  | ok p => exact ⟨p, rfl, by simpa [removeFile, hfind] using h.symm⟩

theorem sameDirectories_write {t : FileTree} {p : Path} (content : Text)
    (hp : t.isDirectory p = false) : SameDirectories t (t.write p content) :=
  sameDirectories_set hp (isDirectory_overwrite content _)

/-- A file that was stored is read back. -/
theorem readFile_set {t : FileTree} {home p : Path} {name : Text}
    (h : t.target home name = .ok p) (content : Text) :
    (t.set p (.file content)).readFile home name = .ok content := by
  have hp := not_isDirectory_of_target h
  exact readFile_of_target (sameDirectories_set hp rfl) h
    (get?_set_self t (ne_nil_of_not_isDirectory hp) _) rfl

theorem readFile_write {t : FileTree} {home p : Path} {name : Text}
    (h : t.target home name = .ok p) (content : Text) :
    (t.write p content).readFile home name = .ok content := by
  have hp := not_isDirectory_of_target h
  exact readFile_of_target (sameDirectories_write content hp) h
    (get?_set_self t (ne_nil_of_not_isDirectory hp) _) (content?_overwrite content _)

/-- Taking out another file does not matter. -/
theorem readFile_erase_write {t : FileTree} {home p q : Path} {name : Text}
    (h : t.target home name = .ok q) (hp : t.isDirectory p = false) (hne : q ≠ p)
    (content : Text) : ((t.write q content).erase p).readFile home name = .ok content := by
  have hq := not_isDirectory_of_target h
  have hwritten := sameDirectories_write content hq
  have hp' : (t.write q content).isDirectory p = false := by
    rw [← hwritten p]
    exact hp
  have hget : ((t.write q content).erase p).get? q =
      some (Entry.overwrite content (t.get? q)) := by
    rw [get?_erase_ne _ hne]
    exact get?_set_self t (ne_nil_of_not_isDirectory hq) _
  exact readFile_of_target (hwritten.trans (sameDirectories_erase hp')) h hget
    (content?_overwrite content _)

/-- A file that was stored is still found after another one was written. -/
theorem find_write_set {t : FileTree} {home p q : Path} {name : Text} {e : Entry}
    (h : t.target home name = .ok p) (he : e.isDirectory = false)
    (hq : (t.set p e).isDirectory q = false) (hne : q ≠ p) (content : Text) :
    ((t.set p e).write q content).find home name = .ok p := by
  have hp := not_isDirectory_of_target h
  refine find_of_target ((sameDirectories_set hp he).trans (sameDirectories_write content hq)) h ?_
  rw [write, get?_set_ne _ (Ne.symm hne), get?_set_self _ (ne_nil_of_not_isDirectory hp)]
  rfl

end FileTree
end TapeC
