import Mathlib.Data.List.Perm.Subperm
import Mathlib.Data.List.Nodup
import TapeC.Proofs.FileTree
import TapeC.TempFile

/-!
Temporary files among the files of a tree.

The number of a new temporary file is searched for among more numbers than the tree
has entries, and different numbers give different names, so the search does not fail:
a new temporary file has a path that nothing in the tree has (`isNewIn_of_create`).
`files` lists the temporary files of a tree.  Writing a new one adds it at the end,
taking it out again gives the old list back, and nothing that is done to a file of
another name shows in it.
-/

namespace TapeC

/-! ## Parts of a name -/

namespace FileTree

theorem parts_append_slash (a b : Text) :
    parts (a ++ Byte.slash :: b) = parts a ++ parts b := by
  rw [parts, List.splitOn_append_cons_self, List.filter_append]
  rfl

theorem parts_eq_singleton {name : Text} (hslash : Byte.slash ∉ name) (hne : name ≠ []) :
    parts name = [name] := by
  rw [parts, List.splitOn_eq_singleton hslash, List.filter_singleton,
    List.isEmpty_eq_false_iff.2 hne]
  rfl

/-- A file is stored under the last part of its name. -/
theorem getLast?_of_target {t : FileTree} {home p : Path} {name : Text}
    (h : t.target home name = .ok p) : p.getLast? = (parts name).getLast? := by
  obtain ⟨_, _, _, dirs, last, dir, hparts, _, _, _, _, _, rfl⟩ := exists_of_target h
  rw [hparts, List.getLast?_concat, List.getLast?_concat]

/-- A name at which a file could be stored is not found while there is none. -/
theorem find_of_target_absent {t : FileTree} {home p : Path} {name : Text}
    (h : t.target home name = .ok p) (hnone : t.get? p = none) :
    t.find home name = .error .notFound := by
  obtain ⟨hpre, _, _, dirs, last, dir, hparts, hwalk, hd, hdot, hup, hlong, rfl⟩ :=
    exists_of_target h
  have henter : t.enter dir last = .error .notFound := by
    rw [enter, hd]
    simp [hdot, hup, hlong, hnone]
  have hwalk' : t.walk (origin home name) (parts name) = .error .notFound := by
    rw [hparts, walk_concat hwalk, henter]
  simp [find, hpre, hwalk', bind, Except.bind]

/-! ## Names in a directory -/

theorem precheck_eq_ok_iff {name : Text} :
    precheck name = .ok () ↔ 0 ∉ name ∧ name ≠ [] ∧ name.length < 4096 := by
  unfold precheck
  by_cases hzero : 0 ∈ name
  · simp [hzero]
  by_cases hempty : name = []
  · simp [hempty]
  by_cases hlong : 4096 ≤ name.length
  · have : ¬ name.length < 4096 := by omega
    simp [hzero, hempty, hlong, this]
  · have : name.length < 4096 := by omega
    simp [hzero, hempty, hlong, this]

theorem name_ne_nil_of_target {t : FileTree} {home p : Path} {name : Text}
    (h : t.target home name = .ok p) : name ≠ [] :=
  (precheck_eq_ok_iff.1 (exists_of_target h).1).2.1

theorem walk_of_find {t : FileTree} {home d : Path} {name : Text}
    (h : t.find home name = .ok d) :
    precheck name = .ok () ∧ t.walk (origin home name) (parts name) = .ok d := by
  cases hpre : precheck name with
  | error e => simp [find, hpre, bind, Except.bind] at h
  | ok _ =>
    cases hwalk : t.walk (origin home name) (parts name) with
    | error e => simp [find, hpre, hwalk, bind, Except.bind] at h
    | ok d' =>
      simp only [find, hpre, hwalk, bind, Except.bind] at h
      split at h
      · cases h
      · exact ⟨rfl, h⟩

theorem exists_join (dir name : Text) :
    ∃ before, TempFile.join dir name = before ++ Byte.slash :: name ∧ parts before = parts dir := by
  unfold TempFile.join
  split
  · next h =>
    obtain ⟨before, hbefore⟩ := List.getLast?_eq_some_iff.1 (beq_iff_eq.1 h)
    refine ⟨before, by rw [hbefore, List.append_assoc, List.singleton_append], ?_⟩
    rw [hbefore, parts_append_slash]
    exact (List.append_nil _).symm
  · exact ⟨dir, by rw [List.append_assoc, List.singleton_append], rfl⟩

/-- A file can be created in a directory that is there, under a name that is not too
long and that no directory has. -/
theorem target_join {t : FileTree} {home d : Path} {dir name : Text}
    (hfind : t.find home dir = .ok d) (hdir : t.isDirectory d = true)
    (hslash : Byte.slash ∉ name) (hne : name ≠ []) (hzero : 0 ∉ name)
    (hdot : name ≠ Text.ascii ".") (hup : name ≠ Text.ascii "..")
    (hlong : name.length ≤ 255) (hwhole : (TempFile.join dir name).length < 4096)
    (hfile : t.isDirectory (d ++ [name]) = false) :
    t.target home (TempFile.join dir name) = .ok (d ++ [name]) := by
  obtain ⟨hpredir, hwalk⟩ := walk_of_find hfind
  obtain ⟨hzerodir, hnedir, _⟩ := precheck_eq_ok_iff.1 hpredir
  have hjoin : ∃ tail, TempFile.join dir name = dir ++ tail ++ name ∧ 0 ∉ tail := by
    unfold TempFile.join
    split
    · exact ⟨[], by rw [List.append_nil], List.not_mem_nil⟩
    · exact ⟨[Byte.slash], rfl, by decide⟩
  obtain ⟨tail, htail, hzerotail⟩ := hjoin
  have hpre : precheck (TempFile.join dir name) = .ok () := by
    rw [precheck_eq_ok_iff]
    refine ⟨?_, ?_, hwhole⟩
    · rw [htail, List.mem_append, List.mem_append]
      rintro ((h | h) | h)
      · exact hzerodir h
      · exact hzerotail h
      · exact hzero h
    · rw [htail]
      simp [hne]
  have hparts : parts (TempFile.join dir name) = parts dir ++ [name] := by
    obtain ⟨before, hbefore, hsame⟩ := exists_join dir name
    rw [hbefore, parts_append_slash, hsame, parts_eq_singleton hslash hne]
  have horigin : origin home (TempFile.join dir name) = origin home dir := by
    rw [origin, origin, isAbsolute, isAbsolute, htail, List.append_assoc,
      List.head?_append_of_ne_nil _ hnedir]
  have hslashed : isSlashed (TempFile.join dir name) = false := by
    rw [isSlashed, htail, List.getLast?_append_of_ne_nil _ hne, beq_eq_false_iff_ne]
    exact fun h => hslash (List.mem_of_getLast? h)
  have hlast : ¬ 255 < name.length := Nat.not_lt.2 hlong
  have hd : t.isDirectory d = true := hdir
  simp only [target, hpre, hparts, horigin, hslashed, List.getLast?_concat, List.dropLast_concat,
    hwalk, bind, Except.bind]
  simp [hd, hdot, hup, hlast, hfile]

/-! ## New paths -/

/-- Nothing in the tree has the path. -/
def IsNew (t : FileTree) (p : Path) : Prop := ∀ e ∈ t.entries, e.1 ≠ p

theorem IsNew.get? {t : FileTree} {p : Path} (h : t.IsNew p) (hp : p ≠ []) : t.get? p = none := by
  have hnone : t.entries.find? (fun e => decide (e.1 = p)) = none := by
    rw [List.find?_eq_none]
    intro e he
    simpa using h e he
  simp [FileTree.get?, hp, hnone]

end FileTree

namespace TempFile

open FileTree

/-! ## Names of temporary files -/

theorem nameOf_injective {m n : Nat} (h : nameOf m = nameOf n) : m = n :=
  Decimal.natural_injective (List.append_cancel_left (List.append_cancel_right h))

theorem nameOf_ne_nil (n : Nat) : nameOf n ≠ [] := by
  simp [nameOf, Decimal.natural_ne_nil]

theorem isName_nameOf (n : Nat) : isName (nameOf n) = true := by
  have hprefix : (Text.ascii "turbobrain-").isPrefixOf (nameOf n) = true := by
    rw [List.isPrefixOf_iff_prefix, nameOf, List.append_assoc]
    exact List.prefix_append _ _
  have hsuffix : (Text.ascii ".c").isSuffixOf (nameOf n) = true := by
    rw [List.isSuffixOf_iff_suffix]
    exact List.suffix_append _ _
  have hdigits : ((nameOf n).drop (Text.ascii "turbobrain-").length).take
      ((nameOf n).length - (Text.ascii "turbobrain-").length - (Text.ascii ".c").length) =
        Decimal.natural n := by
    have hlength : (nameOf n).length - (Text.ascii "turbobrain-").length -
        (Text.ascii ".c").length = (Decimal.natural n).length := by
      simp only [nameOf, List.length_append]
      omega
    rw [hlength, nameOf, List.append_assoc, List.drop_left, List.take_left]
  have hall : (Decimal.natural n).all Decimal.isDigit = true :=
    List.all_eq_true.2 fun b hb => Decimal.isDigit_of_mem_natural hb
  have hsome : (Decimal.natural n).isEmpty = false :=
    List.isEmpty_eq_false_iff.2 (Decimal.natural_ne_nil n)
  simp only [isName, hprefix, hsuffix, hdigits, hall, hsome]
  rfl

theorem slash_not_mem_nameOf (n : Nat) : Byte.slash ∉ nameOf n := by
  intro h
  rw [nameOf, List.mem_append, List.mem_append] at h
  rcases h with (h | h) | h
  · exact absurd h (by decide)
  · exact absurd (Decimal.isDigit_of_mem_natural h) (by decide)
  · exact absurd h (by decide)

theorem zero_not_mem_nameOf (n : Nat) : 0 ∉ nameOf n := by
  intro h
  rw [nameOf, List.mem_append, List.mem_append] at h
  rcases h with (h | h) | h
  · exact absurd h (by decide)
  · exact absurd (Decimal.isDigit_of_mem_natural h) (by decide)
  · exact absurd h (by decide)

theorem two_lt_length_nameOf (n : Nat) : 2 < (nameOf n).length := by
  have hstart : (Text.ascii "turbobrain-").length = 11 := rfl
  rw [nameOf, List.length_append, List.length_append, hstart]
  omega

theorem getLast?_parts_join (dir : Text) (n : Nat) :
    (parts (join dir (nameOf n))).getLast? = some (nameOf n) := by
  have hname : parts (nameOf n) = [nameOf n] :=
    parts_eq_singleton (slash_not_mem_nameOf n) (nameOf_ne_nil n)
  obtain ⟨before, hbefore, _⟩ := exists_join dir (nameOf n)
  rw [hbefore, parts_append_slash, hname, List.getLast?_concat]

/-! ## New numbers -/

theorem exists_not_isTaken (t : FileTree) (first : Nat) :
    ∃ i, i < t.entries.length + 1 ∧ isTaken t (nameOf (first + i)) = false := by
  by_contra hall
  -- otherwise the tree has more names than entries
  let names := (List.range (t.entries.length + 1)).map fun i => nameOf (first + i)
  let taken := t.entries.filterMap fun e => e.1.getLast?
  have hnodup : names.Nodup := by
    refine List.Nodup.map ?_ List.nodup_range
    intro i j hij
    have := nameOf_injective hij
    omega
  have hsubset : names ⊆ taken := by
    intro name hname
    obtain ⟨i, hi, rfl⟩ := List.mem_map.1 hname
    have htaken : isTaken t (nameOf (first + i)) = true := by
      by_contra hfree
      exact hall ⟨i, List.mem_range.1 hi, Bool.eq_false_iff.mpr hfree⟩
    obtain ⟨e, he, hlast⟩ := List.any_eq_true.1 htaken
    exact List.mem_filterMap.2 ⟨e, he, beq_iff_eq.1 hlast⟩
  have hle : names.length ≤ taken.length := (hnodup.subperm hsubset).length_le
  have htaken : taken.length ≤ t.entries.length := List.length_filterMap_le _ _
  have hnames : names.length = t.entries.length + 1 := by
    rw [List.length_map, List.length_range]
  omega

theorem isTaken_freshIndex (seed : Nat) (t : FileTree) :
    isTaken t (nameOf (freshIndex seed t)) = false := by
  obtain ⟨i, hi, hfree⟩ := exists_not_isTaken t (firstIndex seed)
  let candidates := (List.range (t.entries.length + 1)).map (firstIndex seed + ·)
  have hsome : (candidates.find? fun n => !isTaken t (nameOf n)).isSome := by
    rw [List.find?_isSome]
    exact ⟨firstIndex seed + i, List.mem_map.2 ⟨i, List.mem_range.2 hi, rfl⟩, by rw [hfree]; rfl⟩
  obtain ⟨n, hn⟩ := Option.isSome_iff_exists.1 hsome
  have hfresh : freshIndex seed t = n := by
    show (candidates.find? fun n => !isTaken t (nameOf n)).getD _ = n
    rw [hn]
    rfl
  have := List.find?_some hn
  rw [hfresh]
  simpa using this

/-- A path that ends in a name which is not taken is new. -/
theorem isNew_of_getLast? {seed : Nat} {t : FileTree} {p : Path}
    (h : p.getLast? = some (nameOf (freshIndex seed t))) : t.IsNew p := by
  intro e he heq
  have htaken : isTaken t (nameOf (freshIndex seed t)) = true :=
    List.any_eq_true.2 ⟨e, he, by rw [heq, h, beq_self_eq_true]⟩
  rw [isTaken_freshIndex] at htaken
  cases htaken

/-! ## Temporary files of a tree -/

/-- Whether a path ends in the name of a temporary file. -/
def isPath (p : Path) : Bool := p.getLast?.any isName

/-- What an entry is among the temporary files: a directory is none, and neither is a
file of another name. -/
def fileOf? (e : Path × Entry) : Option (Path × Text) :=
  if isPath e.1 then e.2.content?.map (e.1, ·) else none

/-- The temporary files of a tree with what they hold. -/
def files (t : FileTree) : List (Path × Text) := t.entries.filterMap fileOf?

theorem fst_of_fileOf? {e : Path × Entry} {f : Path × Text} (h : fileOf? e = some f) :
    e.1 = f.1 ∧ isPath f.1 = true := by
  unfold fileOf? at h
  split at h
  · next hp =>
    obtain ⟨content, _, rfl⟩ := Option.map_eq_some_iff.1 h
    exact ⟨rfl, hp⟩
  · cases h

theorem files_erase (t : FileTree) (p : Path) :
    files (t.erase p) = (files t).filter fun f => f.1 ≠ p := by
  show (t.entries.filter _).filterMap fileOf? = (t.entries.filterMap fileOf?).filter _
  rw [List.filterMap_filter, List.filter_filterMap]
  refine List.filterMap_congr fun e _ => ?_
  cases hf : fileOf? e with
  | none => exact ite_self none
  | some f =>
    rw [(fst_of_fileOf? hf).1]
    rfl

theorem filter_files_eq_self {t : FileTree} {p : Path}
    (h : isPath p = false ∨ t.IsNew p) :
    (files t).filter (fun f => f.1 ≠ p) = files t := by
  rw [List.filter_eq_self]
  intro f hf
  obtain ⟨e, he, hfile⟩ := List.mem_filterMap.1 hf
  obtain ⟨hpath, hname⟩ := fst_of_fileOf? hfile
  refine decide_eq_true fun hp => ?_
  rcases h with h | h
  · rw [hp, h] at hname
    cases hname
  · exact h e he (hpath.trans hp)

/-- Nothing that is done to a file of another name shows among the temporary files. -/
theorem files_write_of_not_isPath {p : Path} (hp : isPath p = false) (t : FileTree)
    (content : Text) : files (t.write p content) = files t := by
  have hsplit : files (t.write p content) = files (t.erase p) ++
      [(p, Entry.overwrite content (t.get? p))].filterMap fileOf? := List.filterMap_append
  have hnone : [(p, Entry.overwrite content (t.get? p))].filterMap fileOf? = [] := by
    simp [fileOf?, hp]
  rw [hsplit, hnone, List.append_nil, files_erase, filter_files_eq_self (Or.inl hp)]

theorem files_set_of_isNew {t : FileTree} {p : Path} (h : t.IsNew p)
    (hp : isPath p = true) (content : Text) :
    files (t.set p (.file content)) = files t ++ [(p, content)] := by
  have hsplit : files (t.set p (.file content)) = files (t.erase p) ++
      [(p, Entry.file content)].filterMap fileOf? := List.filterMap_append
  have hone : [(p, Entry.file content)].filterMap fileOf? = [(p, content)] := by
    simp [fileOf?, hp, Entry.content?]
  rw [hsplit, hone, files_erase, filter_files_eq_self (Or.inr h)]

/-- Taking out a file that was added leaves the others. -/
theorem filter_files_append {t : FileTree} {p : Path} (h : t.IsNew p)
    (content : Text) :
    (files t ++ [(p, content)]).filter (fun f => f.1 ≠ p) = files t := by
  rw [List.filter_append, filter_files_eq_self (Or.inr h)]
  simp

/-! ## Created files -/

/-- A temporary file that was created in a tree: its path is new, and it is that of a
temporary file. -/
structure Created.IsNewIn (source : Created) (t : FileTree) (home : Path) : Prop where
  target : t.target home source.name = .ok source.path
  tree : source.tree = t.set source.path (.file [])
  isNew : t.IsNew source.path
  isPath : isPath source.path = true

theorem isNewIn_of_create {seed : Nat} {t : FileTree} {home : Path} {dir : Text}
    {source : Created} (h : create seed t home dir = .ok source) : source.IsNewIn t home := by
  cases htarget : t.target home (join dir (nameOf (freshIndex seed t))) with
  | error reason => simp [create, htarget] at h
  | ok p =>
    have hlast : p.getLast? = some (nameOf (freshIndex seed t)) := by
      rw [getLast?_of_target htarget, getLast?_parts_join]
    simp only [create, htarget, Except.ok.injEq] at h
    subst h
    refine ⟨htarget, rfl, isNew_of_getLast? hlast, ?_⟩
    rw [isPath, hlast]
    exact isName_nameOf _

namespace Created.IsNewIn

variable {source : Created} {t : FileTree} {home : Path}

theorem ne_nil (h : source.IsNewIn t home) : source.path ≠ [] :=
  ne_nil_of_not_isDirectory (not_isDirectory_of_target h.target)

/-- What is written to a new temporary file is all that it holds. -/
theorem write_tree (h : source.IsNewIn t home) (content : Text) :
    source.tree.write source.path content = t.set source.path (.file content) := by
  rw [h.tree, write, get?_set_self t h.ne_nil, set_set]
  rfl

theorem taken_tree (h : source.IsNewIn t home) (content : Text) :
    source.tree.taken source.path content = t.taken source.path content := by
  rw [h.tree]
  rfl

theorem fill_of_taken (h : source.IsNewIn t home) {content : Text}
    (htaken : t.taken source.path content = content) :
    source.tree.fill source.path source.name content =
      .ok (t.set source.path (.file content)) := by
  rw [FileTree.fill_of_taken ((h.taken_tree content).trans htaken), h.write_tree]

theorem fill_of_not_taken (h : source.IsNewIn t home) {content : Text}
    (htaken : t.taken source.path content ≠ content) :
    source.tree.fill source.path source.name content =
      .error ⟨⟨.writing, source.name, .noSpace⟩,
        t.set source.path (.file (t.taken source.path content))⟩ := by
  rw [← h.taken_tree] at htaken ⊢
  rw [FileTree.fill_of_not_taken htaken, h.write_tree]

end Created.IsNewIn
end TempFile
end TapeC
