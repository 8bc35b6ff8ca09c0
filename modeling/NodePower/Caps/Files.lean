import Mathlib.Algebra.Order.Ring.Rat
import Mathlib.Data.List.AList
import Mathlib.Data.List.DropRight
import Mathlib.Data.List.Induction
import Mathlib.Data.List.ProdSigma
import NodePower.Common.CString

/-!
# The files of the power-cap experiments

`exp_power_cap.py` runs a benchmark under every pair of a CPU cap and a GPU cap, and the monitors
leave three files for each pair. The caps stand in the names of the files, and the notebooks get
them back by splitting the names at underscores.

A cell that is empty in a file is `none`. Counters and shares are never negative.
-/

namespace NodePower.Caps

/-- A row of a file: its time and the other columns. -/
structure Timed (Columns : Type) where
  time : ℚ
  columns : Columns
  deriving DecidableEq

/-- The other columns of `read_cpu_power.py`. -/
structure CpuPower where
  packagePower : Option ℚ
  dramPower : Option ℚ
  deriving DecidableEq

/-- The other columns of `read_cpu_metrics.py`. -/
structure CpuMetrics where
  ips : Option ℚ≥0
  memoryThroughput : Option ℚ≥0
  llcMisses : Option ℚ≥0
  deriving DecidableEq

/-- The other columns of `read_gpu_metrics.py`. -/
structure GpuMetrics where
  smClock : Option ℚ≥0
  dramActive : Option ℚ≥0
  fp16Active : Option ℚ≥0
  fp32Active : Option ℚ≥0
  fp64Active : Option ℚ≥0
  power : Option ℚ
  deriving DecidableEq

/-- What `read_csv` makes of a file. -/
inductive CsvFile where
  | cpuPower (rows : List (Timed CpuPower))
  | cpuMetrics (rows : List (Timed CpuMetrics))
  | gpuMetrics (rows : List (Timed GpuMetrics))
  | other
  deriving DecidableEq

/-- A directory, with its files in the order in which they are listed. -/
abbrev Directory := AList fun _ : Text => CsvFile

/-- The rows of a CPU power file, which `read_csv` and the column accesses need. -/
def Directory.readCpuPower (dir : Directory) (name : Text) : Option (List (Timed CpuPower)) :=
  match dir.lookup name with
  | some (.cpuPower rows) => some rows
  | _ => none

/-- The rows of a CPU metrics file. -/
def Directory.readCpuMetrics (dir : Directory) (name : Text) : Option (List (Timed CpuMetrics)) :=
  match dir.lookup name with
  | some (.cpuMetrics rows) => some rows
  | _ => none

/-- The rows of a GPU metrics file. -/
def Directory.readGpuMetrics (dir : Directory) (name : Text) : Option (List (Timed GpuMetrics)) :=
  match dir.lookup name with
  | some (.gpuMetrics rows) => some rows
  | _ => none

/-- The three files of a pair of caps. -/
structure CapFiles where
  cpuPower : List (Timed CpuPower)
  cpuMetrics : List (Timed CpuMetrics)
  gpuMetrics : List (Timed GpuMetrics)
  deriving DecidableEq

/-- The kinds of files that an experiment leaves. -/
inductive Kind where
  | cpuPower
  | cpuMetrics
  | gpuMetrics
  deriving DecidableEq

/-- How the name of a file ends. -/
def Kind.suffix : Kind → Text
  | .cpuPower => "_cpu_power.csv".toList
  | .cpuMetrics => "_cpu_metrics.csv".toList
  | .gpuMetrics => "_gpu_metrics.csv".toList

/-- The file of one kind. -/
def CapFiles.file (files : CapFiles) : Kind → CsvFile
  | .cpuPower => .cpuPower files.cpuPower
  | .cpuMetrics => .cpuMetrics files.cpuMetrics
  | .gpuMetrics => .gpuMetrics files.gpuMetrics

/-- What `read_csv` makes of a number that `to_csv` has written: of any number, and of a counter or a
share. -/
structure Rereading where
  number : ℚ → ℚ
  share : ℚ≥0 → ℚ≥0

/-- Zero is read back as zero, and a positive share as a positive one. -/
structure Rereading.KeepsActivity (reread : Rereading) : Prop where
  number_zero : reread.number 0 = 0
  share_pos : ∀ {x : ℚ≥0}, 0 < x → 0 < reread.share x

/-- The rows of a file that is read back. -/
def Rereading.rows {Columns : Type} (reread : Rereading) (columns : Columns → Columns)
    (rows : List (Timed Columns)) : List (Timed Columns) :=
  rows.map fun row => ⟨reread.number row.time, columns row.columns⟩

/-- The columns of a CPU power file that is read back. -/
def Rereading.cpuPower (reread : Rereading) (row : CpuPower) : CpuPower where
  packagePower := row.packagePower.map reread.number
  dramPower := row.dramPower.map reread.number

/-- The columns of a CPU metrics file that is read back. -/
def Rereading.cpuMetrics (reread : Rereading) (row : CpuMetrics) : CpuMetrics where
  ips := row.ips.map reread.share
  memoryThroughput := row.memoryThroughput.map reread.share
  llcMisses := row.llcMisses.map reread.share

/-- The columns of a GPU metrics file that is read back. -/
def Rereading.gpuMetrics (reread : Rereading) (row : GpuMetrics) : GpuMetrics where
  smClock := row.smClock.map reread.share
  dramActive := row.dramActive.map reread.share
  fp16Active := row.fp16Active.map reread.share
  fp32Active := row.fp32Active.map reread.share
  fp64Active := row.fp64Active.map reread.share
  power := row.power.map reread.number

/-- The three files of a pair of caps that are read back. -/
def Rereading.capFiles (reread : Rereading) (files : CapFiles) : CapFiles where
  cpuPower := reread.rows reread.cpuPower files.cpuPower
  cpuMetrics := reread.rows reread.cpuMetrics files.cpuMetrics
  gpuMetrics := reread.rows reread.gpuMetrics files.gpuMetrics

/-- A file that is read back. -/
def Rereading.file (reread : Rereading) : CsvFile → CsvFile
  | .cpuPower rows => .cpuPower (reread.rows reread.cpuPower rows)
  | .cpuMetrics rows => .cpuMetrics (reread.rows reread.cpuMetrics rows)
  | .gpuMetrics rows => .gpuMetrics (reread.rows reread.gpuMetrics rows)
  | .other => .other

/-- The name of a file with the texts of two caps. -/
def capFileName (cpuPower gpuPower : Text) (kind : Kind) : Text :=
  cpuPower ++ '_' :: (gpuPower ++ kind.suffix)

/-- The first two parts of a name, as `split("_")` gives them. -/
def capParts (filename : Text) : Option (Text × Text) :=
  match filename.splitOn '_' with
  | cpuPower :: gpuPower :: _ => some (cpuPower, gpuPower)
  | _ => none

/-- Write the three files of a pair of caps. -/
def Directory.writeCapFiles (dir : Directory) (cpuPower gpuPower : Text) (files : CapFiles) :
    Directory :=
  [Kind.gpuMetrics, .cpuPower, .cpuMetrics].foldl
    (fun dir kind => dir.insert (capFileName cpuPower gpuPower kind) (files.file kind)) dir

/-- The texts of a pair of caps. -/
def capTexts (pair : ℕ × ℕ) : Text × Text := (Nat.toDigits 10 pair.1, Nat.toDigits 10 pair.2)

/-- `cap_exp`: the files that the monitors leave under a pair of caps. -/
def capExp (measured : ℕ × ℕ → CapFiles) (dir : Directory) (pair : ℕ × ℕ) : Directory :=
  dir.writeCapFiles (capTexts pair).1 (capTexts pair).2 (measured pair)

/-- `run_benchmark` of `exp_power_cap.py`: the benchmark under every pair of caps. -/
def runBenchmark (cpuCaps gpuCaps : List ℕ) (measured : ℕ × ℕ → CapFiles) : Directory :=
  cpuCaps.foldl (fun dir cpuCap =>
    gpuCaps.foldl (fun dir gpuCap => capExp measured dir (cpuCap, gpuCap)) dir) ∅

/-- `int` of a text without underscores. -/
def pyInt (text : Text) : Option ℤ :=
  let (negative, digits) := splitSign ((text.dropWhile isCSpace).rdropWhile isCSpace)
  if digits ≠ [] ∧ digits.all Char.isDigit then some (signedNumber negative digits) else none

/-- No part of a split text has the separator. -/
theorem not_mem_of_mem_splitOn {A : Type*} [BEq A] [LawfulBEq A] {separator : A} {text part : List A}
    (hpart : part ∈ text.splitOn separator) : separator ∉ part := by
  induction text generalizing part with
  | nil =>
    rw [List.splitOn_nil, List.mem_singleton] at hpart
    exact hpart ▸ List.not_mem_nil
  | cons a rest ih =>
    rw [List.splitOn_cons_eq_if_modifyHead] at hpart
    obtain ⟨first, others, hrest⟩ := List.exists_cons_of_ne_nil (List.splitOn_ne_nil separator rest)
    rw [hrest] at hpart ih
    split at hpart
    · rcases List.mem_cons.mp hpart with rfl | hpart
      · exact List.not_mem_nil
      · exact ih hpart
    · rename_i ha
      rw [List.modifyHead_cons, List.mem_cons] at hpart
      rcases hpart with rfl | hpart
      · rw [List.mem_cons, not_or]
        exact ⟨fun heq => ha (by simp [heq]), ih List.mem_cons_self⟩
      · exact ih (List.mem_cons_of_mem _ hpart)

/-- The texts of the caps have no underscore. -/
theorem not_mem_of_capParts {filename cpuPower gpuPower : Text}
    (h : capParts filename = some (cpuPower, gpuPower)) : '_' ∉ cpuPower ∧ '_' ∉ gpuPower := by
  unfold capParts at h
  split at h
  · rename_i hsplit
    obtain ⟨rfl, rfl⟩ := Prod.mk.inj (Option.some.inj h)
    exact ⟨not_mem_of_mem_splitOn (hsplit ▸ List.mem_cons_self),
      not_mem_of_mem_splitOn (hsplit ▸ List.mem_cons_of_mem _ List.mem_cons_self)⟩
  · exact nomatch h

/-- The suffix starts with an underscore. -/
theorem Kind.exists_suffix_eq_cons (kind : Kind) : ∃ text, kind.suffix = '_' :: text := by
  cases kind with
  | cpuPower => exact ⟨"cpu_power.csv".toList, rfl⟩
  | cpuMetrics => exact ⟨"cpu_metrics.csv".toList, rfl⟩
  | gpuMetrics => exact ⟨"gpu_metrics.csv".toList, rfl⟩

/-- The caps are read back from the name of a file. -/
theorem capParts_capFileName {cpuPower gpuPower : Text} (hcpu : '_' ∉ cpuPower)
    (hgpu : '_' ∉ gpuPower) (kind : Kind) :
    capParts (capFileName cpuPower gpuPower kind) = some (cpuPower, gpuPower) := by
  obtain ⟨text, htext⟩ := kind.exists_suffix_eq_cons
  rw [capParts, capFileName, htext, List.splitOn_append_cons_self_of_not_mem hcpu,
    List.splitOn_append_cons_self_of_not_mem hgpu]

/-- The kinds end differently. -/
theorem Kind.suffix_injective : Function.Injective Kind.suffix := by
  intro first second hsuffix
  cases first <;> cases second <;> first | rfl | exact absurd hsuffix (by decide)

/-- A name tells the caps and the kind. -/
theorem capFileName_inj {cpuPower gpuPower cpuPower' gpuPower' : Text} {kind kind' : Kind}
    (hcpu : '_' ∉ cpuPower) (hgpu : '_' ∉ gpuPower) (hcpu' : '_' ∉ cpuPower') (hgpu' : '_' ∉ gpuPower')
    (h : capFileName cpuPower gpuPower kind = capFileName cpuPower' gpuPower' kind') :
    cpuPower = cpuPower' ∧ gpuPower = gpuPower' ∧ kind = kind' := by
  have hparts := capParts_capFileName hcpu hgpu kind
  rw [h, capParts_capFileName hcpu' hgpu', Option.some.injEq, Prod.mk.injEq] at hparts
  obtain ⟨rfl, rfl⟩ := hparts
  have hrest := List.append_cancel_left h
  rw [List.cons.injEq] at hrest
  exact ⟨rfl, rfl, Kind.suffix_injective (List.append_cancel_left hrest.2)⟩

/-- What is in a directory after the files of a pair of caps have been written. -/
theorem lookup_writeCapFiles (dir : Directory) {cpuPower gpuPower : Text} (hcpu : '_' ∉ cpuPower)
    (hgpu : '_' ∉ gpuPower) (files : CapFiles) :
    (∀ kind, (dir.writeCapFiles cpuPower gpuPower files).lookup (capFileName cpuPower gpuPower kind) =
        some (files.file kind)) ∧
      ∀ name, (∀ kind, name ≠ capFileName cpuPower gpuPower kind) →
        (dir.writeCapFiles cpuPower gpuPower files).lookup name = dir.lookup name := by
  have hne : ∀ kind kind' : Kind, kind ≠ kind' →
      capFileName cpuPower gpuPower kind ≠ capFileName cpuPower gpuPower kind' :=
    fun kind kind' hkind hname => hkind (capFileName_inj hcpu hgpu hcpu hgpu hname).2.2
  simp only [Directory.writeCapFiles, List.foldl_cons, List.foldl_nil]
  constructor
  · intro kind
    cases kind with
    | cpuMetrics => rw [AList.lookup_insert]
    | cpuPower =>
      rw [AList.lookup_insert_ne (hne _ _ (by decide)), AList.lookup_insert]
    | gpuMetrics =>
      rw [AList.lookup_insert_ne (hne _ _ (by decide)), AList.lookup_insert_ne (hne _ _ (by decide)),
        AList.lookup_insert]
  · intro name hname
    rw [AList.lookup_insert_ne (hname _), AList.lookup_insert_ne (hname _),
      AList.lookup_insert_ne (hname _)]

/-- A directory has the files of the given caps, as far as there are any, and no others. -/
def HasFiles (filesOf : Text × Text → Option CapFiles) (caps : List (Text × Text)) (dir : Directory) :
    Prop :=
  ∀ name content, dir.lookup name = some content ↔ ∃ pair ∈ caps, ∃ files kind,
    filesOf pair = some files ∧ name = capFileName pair.1 pair.2 kind ∧ content = files.file kind

/-- A directory without files. -/
theorem hasFiles_empty (filesOf : Text × Text → Option CapFiles) : HasFiles filesOf [] ∅ := by
  simp [HasFiles]

/-- Caps without files leave a directory as it is. -/
theorem HasFiles.skip {filesOf : Text × Text → Option CapFiles} {caps : List (Text × Text)}
    {dir : Directory} (h : HasFiles filesOf caps dir) {pair : Text × Text}
    (hskip : filesOf pair = none) : HasFiles filesOf (caps ++ [pair]) dir := by
  intro name content
  rw [h name content]
  constructor
  · rintro ⟨other, hother, hrest⟩
    exact ⟨other, List.mem_append_left _ hother, hrest⟩
  · rintro ⟨other, hother, files, kind, hfiles, hrest⟩
    rw [List.mem_append, List.mem_singleton] at hother
    rcases hother with hother | rfl
    · exact ⟨other, hother, files, kind, hfiles, hrest⟩
    · rw [hskip] at hfiles
      exact nomatch hfiles

/-- Caps whose files are written; what they replace was the same. -/
theorem HasFiles.write {filesOf : Text × Text → Option CapFiles} {caps : List (Text × Text)}
    {dir : Directory} (h : HasFiles filesOf caps dir)
    (hcaps : ∀ pair ∈ caps, '_' ∉ pair.1 ∧ '_' ∉ pair.2) {pair : Text × Text}
    (hpair : '_' ∉ pair.1 ∧ '_' ∉ pair.2) {files : CapFiles} (hfiles : filesOf pair = some files) :
    HasFiles filesOf (caps ++ [pair]) (dir.writeCapFiles pair.1 pair.2 files) := by
  obtain ⟨hown, hothers⟩ := lookup_writeCapFiles dir hpair.1 hpair.2 files
  intro name content
  by_cases hname : ∃ kind, name = capFileName pair.1 pair.2 kind
  · obtain ⟨kind, rfl⟩ := hname
    rw [hown kind, Option.some.injEq]
    constructor
    · rintro rfl
      exact ⟨pair, List.mem_append_right _ List.mem_cons_self, files, kind, hfiles, rfl, rfl⟩
    · rintro ⟨other, hother, files', kind', hfiles', hname', rfl⟩
      have hclean : '_' ∉ other.1 ∧ '_' ∉ other.2 := by
        rw [List.mem_append, List.mem_singleton] at hother
        rcases hother with hother | rfl
        · exact hcaps other hother
        · exact hpair
      obtain ⟨hcpu, hgpu, rfl⟩ := capFileName_inj hpair.1 hpair.2 hclean.1 hclean.2 hname'
      obtain rfl : pair = other := Prod.ext hcpu hgpu
      rw [hfiles, Option.some.injEq] at hfiles'
      rw [hfiles']
  · rw [not_exists] at hname
    rw [hothers name hname, h name content]
    constructor
    · rintro ⟨other, hother, hrest⟩
      exact ⟨other, List.mem_append_left _ hother, hrest⟩
    · rintro ⟨other, hother, files', kind, hfiles', hname', hcontent⟩
      rw [List.mem_append, List.mem_singleton] at hother
      rcases hother with hother | rfl
      · exact ⟨other, hother, files', kind, hfiles', hname', hcontent⟩
      · exact absurd hname' (hname kind)

/-- The order in which files are listed does not matter. -/
theorem HasFiles.of_perm {filesOf : Text × Text → Option CapFiles} {caps : List (Text × Text)}
    {dir other : Directory} (h : HasFiles filesOf caps dir) (hperm : other.entries.Perm dir.entries) :
    HasFiles filesOf caps other := by
  intro name content
  rw [AList.perm_lookup hperm, h name content]

/-- A file of one kind is read back as the file of that kind. -/
theorem Rereading.file_capFiles (reread : Rereading) (files : CapFiles) (kind : Kind) :
    reread.file (files.file kind) = (reread.capFiles files).file kind := by
  cases kind <;> rfl

/-- A directory whose files are read back has the files that are read back. -/
theorem HasFiles.reread {filesOf : Text × Text → Option CapFiles} {caps : List (Text × Text)}
    {dir other : Directory} (h : HasFiles filesOf caps dir) (reread : Rereading)
    (hother : ∀ name, other.lookup name = (dir.lookup name).map reread.file) :
    HasFiles (fun pair => (filesOf pair).map reread.capFiles) caps other := by
  intro name content
  rw [hother, Option.map_eq_some_iff]
  constructor
  · rintro ⟨written, hwritten, rfl⟩
    obtain ⟨pair, hpair, files, kind, hfiles, hname, rfl⟩ := (h name written).mp hwritten
    exact ⟨pair, hpair, reread.capFiles files, kind, congrArg (Option.map reread.capFiles) hfiles, hname,
      reread.file_capFiles files kind⟩
  · rintro ⟨pair, hpair, readFiles, kind, hfiles, hname, rfl⟩
    obtain ⟨files, hwritten, rfl⟩ := Option.map_eq_some_iff.mp hfiles
    exact ⟨files.file kind, (h name _).mpr ⟨pair, hpair, files, kind, hwritten, hname, rfl⟩,
      reread.file_capFiles files kind⟩

/-- The file of one kind for a pair of caps. -/
theorem HasFiles.lookup {filesOf : Text × Text → Option CapFiles} {caps : List (Text × Text)}
    {dir : Directory} (h : HasFiles filesOf caps dir) {pair : Text × Text} (hpair : pair ∈ caps)
    {files : CapFiles} (hfiles : filesOf pair = some files) (kind : Kind) :
    dir.lookup (capFileName pair.1 pair.2 kind) = some (files.file kind) :=
  (h _ _).mpr ⟨pair, hpair, files, kind, hfiles, rfl, rfl⟩

/-- Every file that is listed is one of those of a pair of caps. -/
theorem HasFiles.exists_of_mem {filesOf : Text × Text → Option CapFiles} {caps : List (Text × Text)}
    {dir : Directory} (h : HasFiles filesOf caps dir) {name : Text} (hname : name ∈ dir.keys) :
    ∃ pair ∈ caps, ∃ files kind, filesOf pair = some files ∧ name = capFileName pair.1 pair.2 kind := by
  rw [← AList.mem_keys, ← AList.lookup_isSome, Option.isSome_iff_exists] at hname
  obtain ⟨content, hcontent⟩ := hname
  obtain ⟨pair, hpair, files, kind, hfiles, hname, -⟩ := (h name content).mp hcontent
  exact ⟨pair, hpair, files, kind, hfiles, hname⟩

/-- Two directories with the same files for the same caps. -/
theorem HasFiles.lookup_eq {filesOf filesOf' : Text × Text → Option CapFiles}
    {caps caps' : List (Text × Text)} {dir dir' : Directory} (h : HasFiles filesOf caps dir)
    (h' : HasFiles filesOf' caps' dir')
    (hsame : ∀ pair files, pair ∈ caps ∧ filesOf pair = some files ↔
      pair ∈ caps' ∧ filesOf' pair = some files) (name : Text) : dir.lookup name = dir'.lookup name := by
  refine Option.ext fun content => ?_
  rw [h name content, h' name content]
  constructor
  · rintro ⟨pair, hpair, files, kind, hfiles, hrest⟩
    obtain ⟨hpair', hfiles'⟩ := (hsame pair files).mp ⟨hpair, hfiles⟩
    exact ⟨pair, hpair', files, kind, hfiles', hrest⟩
  · rintro ⟨pair, hpair, files, kind, hfiles, hrest⟩
    obtain ⟨hpair', hfiles'⟩ := (hsame pair files).mpr ⟨hpair, hfiles⟩
    exact ⟨pair, hpair', files, kind, hfiles', hrest⟩

/-- Digits have no underscore. -/
theorem underscore_not_mem_toDigits (n : ℕ) : '_' ∉ Nat.toDigits 10 n := fun h =>
  absurd (isDigit_of_mem_toDigits h) (by decide)

/-- A digit is no blank. -/
theorem isCSpace_of_isDigit {c : Char} (hc : c.isDigit) : isCSpace c = false := by
  rw [Bool.eq_false_iff]
  intro hspace
  simp only [isCSpace, List.mem_cons, List.not_mem_nil, or_false, decide_eq_true_eq] at hspace
  rcases hspace with rfl | rfl | rfl | rfl | rfl | rfl <;> exact absurd hc (by decide)

/-- A printed number is read back. -/
theorem pyInt_toDigits (n : ℕ) : pyInt (Nat.toDigits 10 n) = some (n : ℤ) := by
  have hdigits : ∀ c ∈ Nat.toDigits 10 n, c.isDigit := fun c hc => isDigit_of_mem_toDigits hc
  obtain ⟨c, text, hcons, hc⟩ := exists_toDigits_eq_cons n
  have hfront : (Nat.toDigits 10 n).dropWhile isCSpace = Nat.toDigits 10 n := by
    rw [hcons]
    exact List.dropWhile_cons_of_neg (by simp [isCSpace_of_isDigit hc])
  have hback : (Nat.toDigits 10 n).rdropWhile isCSpace = Nat.toDigits 10 n := by
    rw [List.rdropWhile_eq_self_iff]
    intro hne
    simp [isCSpace_of_isDigit (hdigits _ (List.getLast_mem hne))]
  have hsign : splitSign (Nat.toDigits 10 n) = (false, Nat.toDigits 10 n) := by
    rw [hcons]
    unfold splitSign
    split
    · rename_i heq
      rw [(List.cons.inj heq).1] at hc
      exact absurd hc (by decide)
    · rename_i heq
      rw [(List.cons.inj heq).1] at hc
      exact absurd hc (by decide)
    · rfl
  simp only [pyInt, hfront, hback, hsign]
  rw [if_pos ⟨Nat.toDigits_ne_nil, List.all_eq_true.mpr hdigits⟩, signedNumber,
    Nat.ofDigitChars_ten_toDigits]
  simp

/-- The texts of caps have no underscore. -/
theorem not_mem_capTexts (pair : ℕ × ℕ) : '_' ∉ (capTexts pair).1 ∧ '_' ∉ (capTexts pair).2 :=
  ⟨underscore_not_mem_toDigits _, underscore_not_mem_toDigits _⟩

/-- The texts of some caps have no underscore. -/
theorem not_mem_of_mem_map_capTexts {pairs : List (ℕ × ℕ)} {texts : Text × Text}
    (h : texts ∈ pairs.map capTexts) : '_' ∉ texts.1 ∧ '_' ∉ texts.2 := by
  obtain ⟨pair, -, rfl⟩ := List.mem_map.mp h
  exact not_mem_capTexts pair

/-- The texts of caps tell them. -/
theorem capTexts_injective : Function.Injective capTexts := by
  intro pair other h
  rw [capTexts, capTexts, Prod.mk.injEq] at h
  have hcpu := congrArg (Nat.ofDigitChars 10 · 0) h.1
  have hgpu := congrArg (Nat.ofDigitChars 10 · 0) h.2
  simp only [Nat.ofDigitChars_ten_toDigits] at hcpu hgpu
  exact Prod.ext hcpu hgpu

/-- The nested loops go through all pairs of caps. -/
theorem runBenchmark_eq (cpuCaps gpuCaps : List ℕ) (measured : ℕ × ℕ → CapFiles) :
    runBenchmark cpuCaps gpuCaps measured = (cpuCaps ×ˢ gpuCaps).foldl (capExp measured) ∅ := by
  simp only [runBenchmark, SProd.sprod, List.product, List.foldl_flatMap, List.foldl_map]

/-- What is measured under the caps that texts denote. -/
def measuredOf (measured : ℕ × ℕ → CapFiles) (texts : Text × Text) : Option CapFiles :=
  some (measured (Nat.ofDigitChars 10 texts.1 0, Nat.ofDigitChars 10 texts.2 0))

/-- The texts of caps denote them. -/
theorem measuredOf_capTexts (measured : ℕ × ℕ → CapFiles) (pair : ℕ × ℕ) :
    measuredOf measured (capTexts pair) = some (measured pair) := by
  simp only [measuredOf, capTexts, Nat.ofDigitChars_ten_toDigits]

/-- The loop over pairs of caps leaves the files of these pairs. -/
theorem hasFiles_foldl_capExp (measured : ℕ × ℕ → CapFiles) (pairs : List (ℕ × ℕ)) :
    HasFiles (measuredOf measured) (pairs.map capTexts) (pairs.foldl (capExp measured) ∅) := by
  induction pairs using List.reverseRecOn with
  | nil => exact hasFiles_empty _
  | append_singleton pairs pair ih =>
    have hwritten := ih.write (fun _ => not_mem_of_mem_map_capTexts) (not_mem_capTexts pair)
      (measuredOf_capTexts measured pair)
    rw [List.map_append, List.map_singleton, List.foldl_append, List.foldl_cons, List.foldl_nil, capExp]
    exact hwritten

/-- The experiments leave the files of all pairs of caps. -/
theorem hasFiles_runBenchmark (cpuCaps gpuCaps : List ℕ) (measured : ℕ × ℕ → CapFiles) :
    HasFiles (measuredOf measured) ((cpuCaps ×ˢ gpuCaps).map capTexts)
      (runBenchmark cpuCaps gpuCaps measured) := by
  rw [runBenchmark_eq]
  exact hasFiles_foldl_capExp measured (cpuCaps ×ˢ gpuCaps)

/-- The files that the experiments leave. -/
theorem lookup_runBenchmark (cpuCaps gpuCaps : List ℕ) (measured : ℕ × ℕ → CapFiles) (name : Text)
    (content : CsvFile) :
    (runBenchmark cpuCaps gpuCaps measured).lookup name = some content ↔
      ∃ pair ∈ cpuCaps ×ˢ gpuCaps, ∃ kind,
        name = capFileName (capTexts pair).1 (capTexts pair).2 kind ∧
          content = (measured pair).file kind := by
  rw [hasFiles_runBenchmark cpuCaps gpuCaps measured name content]
  constructor
  · rintro ⟨texts, htexts, files, kind, hfiles, hname, hcontent⟩
    obtain ⟨pair, hpair, rfl⟩ := List.mem_map.mp htexts
    rw [measuredOf_capTexts, Option.some.injEq] at hfiles
    exact ⟨pair, hpair, kind, hname, hfiles ▸ hcontent⟩
  · rintro ⟨pair, hpair, kind, hname, hcontent⟩
    exact ⟨capTexts pair, List.mem_map_of_mem hpair, measured pair, kind,
      measuredOf_capTexts measured pair, hname, hcontent⟩

/-- The files of a pair of caps in a directory that lists the files of the experiments in some order. -/
theorem lookup_of_perm {cpuCaps gpuCaps : List ℕ} {measured : ℕ × ℕ → CapFiles} {dir : Directory}
    (hdir : dir.entries.Perm (runBenchmark cpuCaps gpuCaps measured).entries) {pair : ℕ × ℕ}
    (hpair : pair ∈ cpuCaps ×ˢ gpuCaps) (kind : Kind) :
    dir.lookup (capFileName (capTexts pair).1 (capTexts pair).2 kind) = some ((measured pair).file kind) := by
  rw [AList.perm_lookup hdir, lookup_runBenchmark]
  exact ⟨pair, hpair, kind, rfl, rfl⟩

/-- The files of a pair of caps are listed in the directory of the experiments. -/
theorem mem_of_perm {cpuCaps gpuCaps : List ℕ} {measured : ℕ × ℕ → CapFiles} {dir : Directory}
    (hdir : dir.entries.Perm (runBenchmark cpuCaps gpuCaps measured).entries) {pair : ℕ × ℕ}
    (hpair : pair ∈ cpuCaps ×ˢ gpuCaps) (kind : Kind) :
    capFileName (capTexts pair).1 (capTexts pair).2 kind ∈ dir := by
  rw [← AList.lookup_isSome, lookup_of_perm hdir hpair]
  rfl

end NodePower.Caps
