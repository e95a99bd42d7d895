import WebrtcWinXp.Support.CString

/-!
# Free file names

`FileDealFunction::RenameFile`, which adds a suffix to a path until no file
has it.  The suffix goes before the first dot of the whole path, and a path
without a dot stays as it is.
-/

namespace WebrtcWinXp.P2pData

open Support

/-- The paths of the files that exist. -/
structure FileSystem where
  files : Finset Str
  nil_notMem : [] ∉ files

def addFileNameSuffix (path : Str) (str : Option Str) : Str :=
  match str with
  | none => path
  | some str =>
    if '.' ∉ path then path
    else
      path.takeWhile (· ≠ '.') ++ str ++ path.dropWhile (· ≠ '.')

/-- `FileDealFunction` without the string that holds its result. -/
structure FileDealFunction where
  filepath : Str

namespace FileDealFunction

/-- The constructors, after which nothing sets the path. -/
def new : FileDealFunction := ⟨[]⟩

/-- `IsExitFile`, which may change its argument. -/
def isExitFile (deal : FileDealFunction) (fs : FileSystem) (path : Str) :
    Bool × Str :=
  let path := if path.isEmpty then deal.filepath else path
  (path ∈ fs.files, path)

/-- `RenameFile`, as far as the depth of the recursion allows. -/
def renameFile (deal : FileDealFunction) (fs : FileSystem) :
    ℕ → Str → Option Str
  | 0, _ => none
  | depth + 1, path =>
    let (exit, path) := deal.isExitFile fs path
    if !exit then some path
    else deal.renameFile fs depth (addFileNameSuffix path (some "_01".toList))

end FileDealFunction

def isSeparator (c : Char) : Bool := c = '/' || c = '\\'

def directory (path : Str) : Str := path.rdropWhile fun c => !isSeparator c

def fileName (path : Str) : Str := path.rtakeWhile fun c => !isSeparator c

/-- The name from its last dot on, if it has one. -/
def extension (path : Str) : Str :=
  if '.' ∈ fileName path then '.' :: (fileName path).rtakeWhile (· ≠ '.')
  else []

/-- The function returns the path if it is free, and otherwise a free path in
its directory and with its extension. -/
def FindsFreeName (fs : FileSystem) (path : Str) : Prop :=
  ∃ depth result,
    FileDealFunction.new.renameFile fs depth path = some result ∧
      result ∉ fs.files ∧ (path ∉ fs.files → result = path) ∧
        directory result = directory path ∧ extension result = extension path

/-- The first dot of a path is in its last part. -/
def DotInName (path : Str) : Prop :=
  '.' ∈ path ∧ ∀ c ∈ path.dropWhile (· ≠ '.'), !isSeparator c

instance (path : Str) : Decidable (DotInName path) :=
  have : Decidable (∀ c ∈ path.dropWhile (· ≠ '.'), !isSeparator c) :=
    List.decidableBAll _ _
  instDecidableAnd

variable {p : Char → Bool} {s t : Str}

theorem rdropWhile_append_of_exists
    (h : ∃ c ∈ t, ¬p c) : (s ++ t).rdropWhile p = s ++ t.rdropWhile p := by
  have hne : ¬(t.reverse.dropWhile p).isEmpty := by
    rw [List.isEmpty_iff, List.dropWhile_eq_nil_iff]
    intro hall
    obtain ⟨c, hc, hnot⟩ := h
    exact hnot (hall c (List.mem_reverse.mpr hc))
  rw [List.rdropWhile, List.rdropWhile, List.reverse_append,
    List.dropWhile_append, if_neg hne, List.reverse_append,
    List.reverse_reverse]

theorem rdropWhile_append_of_forall
    (h : ∀ c ∈ t, p c) : (s ++ t).rdropWhile p = s.rdropWhile p := by
  rw [List.rdropWhile, List.reverse_append, List.dropWhile_append_of_pos
    fun c hc => h c (List.mem_reverse.mp hc), List.rdropWhile]

theorem rtakeWhile_append_of_exists
    (h : ∃ c ∈ t, ¬p c) : (s ++ t).rtakeWhile p = t.rtakeWhile p := by
  have hne : (t.reverse.takeWhile p).length ≠ t.reverse.length := by
    intro hlength
    obtain ⟨c, hc, hnot⟩ := h
    have hself := (List.takeWhile_prefix p (l := t.reverse)).eq_of_length hlength
    exact hnot (List.takeWhile_eq_self_iff.mp hself c (List.mem_reverse.mpr hc))
  rw [List.rtakeWhile, List.rtakeWhile, List.reverse_append,
    List.takeWhile_append, if_neg hne]

theorem rtakeWhile_append_of_forall
    (h : ∀ c ∈ t, p c) : (s ++ t).rtakeWhile p = s.rtakeWhile p ++ t := by
  rw [List.rtakeWhile, List.reverse_append, List.takeWhile_append_of_pos
    fun c hc => h c (List.mem_reverse.mp hc), List.reverse_append,
    List.reverse_reverse, List.rtakeWhile]

variable {pre post : Str}

theorem extension_append
    (hpost : ∀ c ∈ '.' :: post, !isSeparator c) :
    extension (pre ++ '.' :: post) =
      '.' :: ('.' :: post).rtakeWhile (· ≠ '.') := by
  have hname : fileName (pre ++ '.' :: post) = fileName pre ++ '.' :: post :=
    rtakeWhile_append_of_forall hpost
  rw [extension, hname, if_pos (List.mem_append_right _ List.mem_cons_self),
    rtakeWhile_append_of_exists ⟨'.', List.mem_cons_self, by simp⟩]

/-! ## The names that are tried -/

/-- What `RenameFile` tries after a path. -/
def nextName (path : Str) : Str :=
  addFileNameSuffix path (some "_01".toList)

variable {path : Str}

theorem nextName_of_not_mem (h : '.' ∉ path) :
    nextName path = path := by
  rw [nextName, addFileNameSuffix]
  exact if_pos h

theorem nextName_append (h : '.' ∉ pre) :
    nextName (pre ++ '.' :: post) = pre ++ "_01".toList ++ '.' :: post := by
  have hplain : ∀ c ∈ pre, decide (c ≠ '.') := by
    intro c hc
    simpa using ne_of_mem_of_not_mem hc h
  rw [nextName, addFileNameSuffix, if_neg (by simp),
    List.takeWhile_append_of_pos hplain, List.dropWhile_append_of_pos hplain]
  simp

/-- `n` suffixes. -/
def suffixes (n : ℕ) : Str := (List.replicate n "_01".toList).flatten

theorem iterate_nextName (h : '.' ∉ pre) (n : ℕ) :
    nextName^[n] (pre ++ '.' :: post) = pre ++ suffixes n ++ '.' :: post := by
  induction n generalizing pre with
  | zero => simp [suffixes]
  | succ n ih =>
    rw [Function.iterate_succ_apply, nextName_append h, ih (by simp [h])]
    simp [suffixes, List.replicate_succ]

theorem length_suffixes (n : ℕ) : (suffixes n).length = 3 * n := by
  simp [suffixes, Nat.mul_comm]

theorem exists_free (fs : FileSystem) (h : '.' ∉ pre) :
    ∃ n, nextName^[n] (pre ++ '.' :: post) ∉ fs.files := by
  have hinj : Function.Injective fun n => nextName^[n] (pre ++ '.' :: post) := by
    intro m n heq
    dsimp only at heq
    rw [iterate_nextName h, iterate_nextName h] at heq
    have hlength := congrArg List.length heq
    simp only [List.length_append, length_suffixes] at hlength
    omega
  obtain ⟨name, ⟨n, rfl⟩, hfree⟩ :=
    (Set.infinite_range_of_injective hinj).exists_notMem_finset fs.files
  exact ⟨n, hfree⟩

namespace FileDealFunction

@[simp] theorem isExitFile_new (fs : FileSystem) (path : Str) :
    new.isExitFile fs path = (decide (path ∈ fs.files), path) := by
  unfold isExitFile
  cases path <;> rfl

theorem renameFile_succ (fs : FileSystem) (depth : ℕ) (path : Str) :
    new.renameFile fs (depth + 1) path =
      if path ∈ fs.files then new.renameFile fs depth (nextName path)
      else some path := by
  rw [renameFile]
  simp only [isExitFile_new]
  by_cases hmem : path ∈ fs.files <;> simp [hmem, nextName]

theorem exists_of_renameFile {fs : FileSystem} {depth : ℕ} {path result : Str}
    (h : new.renameFile fs depth path = some result) :
    ∃ n, result = nextName^[n] path ∧ result ∉ fs.files ∧
      (path ∈ fs.files → n ≠ 0) := by
  induction depth generalizing path with
  | zero => cases h
  | succ depth ih =>
    rw [renameFile_succ] at h
    split at h
    · obtain ⟨n, hresult, hfree, -⟩ := ih h
      exact ⟨n + 1, hresult, hfree, fun _ => n.succ_ne_zero⟩
    · next hfree =>
        cases h
        exact ⟨0, rfl, hfree, fun hmem => absurd hmem hfree⟩

theorem renameFile_of_free {fs : FileSystem} {n : ℕ} {path : Str}
    (h : nextName^[n] path ∉ fs.files) :
    ∃ depth result, new.renameFile fs depth path = some result := by
  induction n generalizing path with
  | zero =>
    refine ⟨1, path, ?_⟩
    rw [renameFile_succ]
    exact if_neg h
  | succ n ih =>
    obtain ⟨depth, result, hresult⟩ := ih h
    by_cases hmem : path ∈ fs.files
    · refine ⟨depth + 1, result, ?_⟩
      rw [renameFile_succ, if_pos hmem, hresult]
    · refine ⟨1, path, ?_⟩
      rw [renameFile_succ, if_neg hmem]

end FileDealFunction

theorem isSeparator_suffix : ∀ c ∈ "_01".toList, !isSeparator c := by
  have hall : "_01".toList.all (fun c => !isSeparator c) = true := by decide
  exact List.all_eq_true.mp hall

theorem eq_append_of_dot_mem (h : '.' ∈ path) :
    ∃ pre post, path = pre ++ '.' :: post ∧ '.' ∉ pre ∧
      path.dropWhile (· ≠ '.') = '.' :: post := by
  obtain ⟨pre, post, hpath, hpre⟩ := List.eq_append_cons_of_mem h
  refine ⟨pre, post, hpath, hpre, ?_⟩
  rw [hpath, List.dropWhile_append_of_pos fun c hc => by
    simpa using ne_of_mem_of_not_mem hc hpre]
  simp

theorem dotInName_of_findsFreeName {fs : FileSystem}
    (h : FindsFreeName fs path) (hmem : path ∈ fs.files) : DotInName path := by
  obtain ⟨depth, result, hrename, hfree, -, hdirectory, -⟩ := h
  obtain ⟨n, rfl, -, hn⟩ := FileDealFunction.exists_of_renameFile hrename
  have hdot : '.' ∈ path := by
    by_contra hnot
    rw [Function.iterate_fixed (nextName_of_not_mem hnot)] at hfree
    exact hfree hmem
  obtain ⟨pre, post, rfl, hpre, hdrop⟩ := eq_append_of_dot_mem hdot
  refine ⟨hdot, ?_⟩
  rw [hdrop]
  by_contra hseparator
  push Not at hseparator
  have hexists : ∃ c ∈ '.' :: post, ¬!isSeparator c := by
    simpa using hseparator
  rw [iterate_nextName hpre, directory, directory,
    rdropWhile_append_of_exists hexists, rdropWhile_append_of_exists hexists]
    at hdirectory
  have hlength := congrArg List.length hdirectory
  simp only [List.length_append, length_suffixes] at hlength
  exact hn hmem (by omega)

/-- `RenameFile` does what is asked of it exactly when the path is free or has
its first dot in its last part. -/
theorem findsFreeName_iff (fs : FileSystem) (path : Str) :
    FindsFreeName fs path ↔ (path ∈ fs.files → DotInName path) := by
  constructor
  · exact dotInName_of_findsFreeName
  · intro hname
    by_cases hmem : path ∈ fs.files
    · obtain ⟨hdot, hpost⟩ := hname hmem
      obtain ⟨pre, post, rfl, hpre, hdrop⟩ := eq_append_of_dot_mem hdot
      rw [hdrop] at hpost
      obtain ⟨n, hn⟩ := exists_free fs hpre
      obtain ⟨depth, result, hrename⟩ :=
        FileDealFunction.renameFile_of_free hn
      obtain ⟨m, rfl, hfree, -⟩ :=
        FileDealFunction.exists_of_renameFile hrename
      refine ⟨depth, _, hrename, hfree, fun hnot => absurd hmem hnot, ?_, ?_⟩
      · rw [iterate_nextName hpre, directory, directory,
          rdropWhile_append_of_forall hpost, rdropWhile_append_of_forall hpost]
        refine rdropWhile_append_of_forall fun c hc => ?_
        obtain ⟨suffix, hsuffix, hmem⟩ := List.mem_flatten.mp hc
        rw [List.eq_of_mem_replicate hsuffix] at hmem
        exact isSeparator_suffix c hmem
      · rw [iterate_nextName hpre, extension_append hpost,
          extension_append hpost]
    · refine ⟨1, path, ?_, hmem, fun _ => rfl, rfl, rfl⟩
      rw [FileDealFunction.renameFile_succ, if_neg hmem]

/-- A file without an extension, and one in a directory with a dot. -/
def takenFiles : FileSystem where
  files := {"readme".toList, "my.dir/readme.txt".toList}
  nil_notMem := by decide

theorem not_findsFreeName_takenFiles :
    ["readme".toList, "my.dir/readme.txt".toList].Forall fun path =>
      ¬FindsFreeName takenFiles path := by
  constructor
  · intro h
    exact absurd (dotInName_of_findsFreeName h (by decide)) (by decide)
  · intro h
    exact absurd (dotInName_of_findsFreeName h (by decide)) (by decide)

end WebrtcWinXp.P2pData
