import Mathlib.Data.List.DropRight
import Mathlib.Data.List.Forall2
import Tony.Language
import Tony.Text.Bytes

/-!
Which language is found for a name, a file and a media type. Main statement: each lookup finds Tony
for the texts of a certain normal form, and fails for all others. A name and a media type are taken
without the blanks around them and up to the case of ASCII letters, and a media type only up to its
first semicolon. Of a path the last part counts that does not stay in the same directory.
-/

namespace Tony

open Unicode (isBlank)

namespace Text

structure IsTrimmed (s t : List Char) : Prop where
  exists_blanks : ∃ u v, s = u ++ (t ++ v) ∧ (∀ c ∈ u, isBlank c) ∧ ∀ c ∈ v, isBlank c
  head : ∀ c ∈ t.head?, ¬ isBlank c
  last : ∀ c ∈ t.getLast?, ¬ isBlank c

theorem isTrimmed_trim (s : List Char) : IsTrimmed s (trim s) := by
  have htrim : trim s = (s.dropWhile isBlank).rdropWhile isBlank := rfl
  rw [htrim]
  refine ⟨⟨s.takeWhile isBlank, (s.dropWhile isBlank).rtakeWhile isBlank, ?_, ?_, ?_⟩, ?_, ?_⟩
  · rw [List.rdropWhile_append_rtakeWhile, List.takeWhile_append_dropWhile]
  · exact fun c hc => List.mem_takeWhile_imp hc
  · exact fun c hc => List.mem_rtakeWhile_imp hc
  · intro c hc
    obtain ⟨r, hr⟩ := List.rdropWhile_prefix isBlank (s.dropWhile isBlank)
    have hnot := List.head?_dropWhile_not isBlank s
    rw [← hr, List.head?_append, Option.mem_def.1 hc] at hnot
    exact Bool.eq_false_iff.1 hnot
  · intro c hc
    obtain ⟨hne, rfl⟩ := List.mem_getLast?_eq_getLast hc
    exact List.rdropWhile_last_not _ _ hne

theorem IsTrimmed.trim_eq {s t : List Char} (h : IsTrimmed s t) : trim s = t := by
  obtain ⟨⟨u, v, rfl, hu, hv⟩, hhead, hlast⟩ := h
  have htrim : trim (u ++ (t ++ v)) = ((u ++ (t ++ v)).dropWhile isBlank).rdropWhile isBlank := rfl
  rw [htrim, List.dropWhile_append_of_pos hu]
  cases t with
  | nil => rw [List.nil_append, List.dropWhile_eq_nil_iff.2 hv, List.rdropWhile_nil]
  | cons c r =>
    have hkeep : (c :: r).rdropWhile isBlank = c :: r :=
      List.rdropWhile_eq_self_iff.2 fun hne => hlast _ (List.getLast?_eq_some_getLast hne)
    rw [List.cons_append, List.dropWhile_cons_of_neg (hhead c rfl), ← List.cons_append,
      List.rdropWhile, List.reverse_append,
      List.dropWhile_append_of_pos fun d hd => hv d (List.mem_reverse.1 hd)]
    exact hkeep

def SameLetter (c d : Char) : Prop :=
  c = d ∨ (c.isUpper ∧ d.toNat = c.toNat + 32) ∨ (d.isUpper ∧ c.toNat = d.toNat + 32)

theorem isUpper_iff {c : Char} : c.isUpper ↔ 65 ≤ c.toNat ∧ c.toNat ≤ 90 := by
  have hdef : c.isUpper = decide ('A'.val ≤ c.val ∧ c.val ≤ 'Z'.val) := rfl
  rw [hdef, decide_eq_true_iff, UInt32.le_iff_toNat_le, UInt32.le_iff_toNat_le]
  rfl

theorem toNat_toLower (c : Char) :
    c.toLower.toNat = if c.isUpper then c.toNat + 32 else c.toNat := by
  split
  · rename_i hupper
    have hval : c.toLower.val = c.val + ('a'.val - 'A'.val) :=
      congrArg Char.val (dif_pos (of_decide_eq_true hupper))
    have hshift : ('a'.val - 'A'.val).toNat = 32 := by decide
    have hbounds := isUpper_iff.1 hupper
    rw [← Char.toNat_val] at hbounds ⊢
    rw [← Char.toNat_val, hval, UInt32.toNat_add, hshift]
    omega
  · rename_i hupper
    have hsame : c.toLower = c := dif_neg fun hbounds => hupper (decide_eq_true hbounds)
    rw [hsame]

theorem toLower_eq_iff {c d : Char} : c.toLower = d.toLower ↔ SameLetter c d := by
  rw [SameLetter, ← Char.toNat_inj, ← Char.toNat_inj, toNat_toLower, toNat_toLower]
  grind [isUpper_iff]

theorem sameLetters_iff {known s : List Char} :
    sameLetters known s ↔ List.Forall₂ SameLetter s known := by
  rw [sameLetters, beq_iff_eq, eq_comm, ← List.forall₂_eq_eq_eq, List.forall₂_map_left_iff,
    List.forall₂_map_right_iff]
  simp only [toLower_eq_iff]

end Text

namespace Path

theorem split_eq (path : List Char) : split path = path.splitOn '/' := by
  induction path with
  | nil => rfl
  | cons c s ih =>
    obtain ⟨part, parts, hparts⟩ := List.exists_cons_of_ne_nil (List.splitOn_ne_nil '/' s)
    rw [split, ih, List.splitOn_cons_eq_if_modifyHead, hparts]
    by_cases hc : c = '/'
    · simp [hc]
    · simp [hc]

def steps (path : List Char) : List (List Char) :=
  (path.splitOn '/').filter fun part => part ≠ [] ∧ part ≠ ['.']

theorem components_eq (path : List Char) : components path = steps path := by
  rw [components, split_eq, steps]
  refine List.filter_congr fun part _ => ?_
  cases part with
  | nil => rfl
  | cons c part => simp

theorem steps_append (s t : List Char) : steps (s ++ '/' :: t) = steps s ++ steps t := by
  rw [steps, List.splitOn_append_cons_self, List.filter_append]
  rfl

theorem fileName?_of_append (s t : List Char) :
    fileName? (s ++ '/' :: t) = if steps t = [] then fileName? s else fileName? t := by
  rw [fileName?, components_eq, steps_append]
  split
  · rename_i h
    rw [h, List.append_nil, fileName?, components_eq]
  · rename_i h
    rw [List.getLast?_append_of_ne_nil _ h, fileName?, components_eq]

end Path

namespace Language

open Text (IsTrimmed SameLetter bytes bytes_append bytes_eq_zero_iff sameLetters sameLetters_iff)

/-- A lookup that finds Tony if a condition holds, and fails for a known reason if it does not. -/
structure Decides (result : Except LookupError Language) (condition : Prop)
    (failure : LookupError) : Prop where
  found_iff : (∃ l, result = .ok l) ↔ condition
  eq_tony : ∀ l, result = .ok l → l = .tony
  eq_failure : ∀ e, result = .error e → e = failure

theorem decides_find {p : Language → Bool} {condition : Prop} {failure : LookupError}
    (h : p tony ↔ condition) :
    Decides ((all.find? p).elim (.error failure) .ok) condition failure := by
  rw [all, List.find?_singleton]
  cases hp : p tony with
  | true => exact ⟨iff_of_true ⟨_, rfl⟩ (h.1 hp), fun l hl => (Except.ok.inj hl).symm, nofun⟩
  | false =>
    have hfails : ¬ condition := fun hcondition => Bool.eq_false_iff.1 hp (h.2 hcondition)
    exact ⟨iff_of_false nofun hfails, nofun, fun e he => (Except.error.inj he).symm⟩

theorem answersTo_tony_iff {name : List Char} :
    tony.answersTo name ↔ List.Forall₂ SameLetter name "tony".toList := by
  have hknown : tony.answersTo name =
      (sameLetters "Tony".toList name || (sameLetters "tony".toList name || false)) := rfl
  have hsame : sameLetters "Tony".toList name = sameLetters "tony".toList name := by
    have hlower : "Tony".toList.map Char.toLower = "tony".toList.map Char.toLower := by decide
    rw [sameLetters, sameLetters, hlower]
  rw [hknown, hsame, Bool.or_false, Bool.or_self, sameLetters_iff]

theorem serves_tony_iff {mimetype : List Char} :
    tony.serves mimetype ↔ List.Forall₂ SameLetter mimetype "text/x-tony".toList := by
  have hknown : tony.serves mimetype = (sameLetters "text/x-tony".toList mimetype || false) := rfl
  rw [hknown, Bool.or_false, sameLetters_iff]

theorem handles_tony_iff {fileName : List Char} :
    tony.handles fileName ↔ 5 < bytes fileName ∧ ".tony".toList <:+ fileName := by
  have hfits : tony.handles fileName =
      ((5 < fileName.length && ".tony".toList.isSuffixOf fileName) || false) := rfl
  rw [hfits, Bool.or_false, Bool.and_eq_true, decide_eq_true_iff, List.isSuffixOf_iff_suffix]
  refine and_congr_left ?_
  rintro ⟨stem, rfl⟩
  have hlength : ".tony".toList.length = 5 := rfl
  have hbytes : bytes ".tony".toList = 5 := rfl
  have hstem : bytes stem = 0 ↔ stem.length = 0 := by rw [bytes_eq_zero_iff, List.length_eq_zero_iff]
  rw [List.length_append, bytes_append, hlength, hbytes]
  omega

theorem decides_withName {name t : List Char} (h : IsTrimmed name t) :
    Decides (withName name) (List.Forall₂ SameLetter t "tony".toList) (.unknownName t) := by
  rw [withName, h.trim_eq]
  exact decides_find answersTo_tony_iff

theorem decides_forMimetype {mimetype t : List Char}
    (h : IsTrimmed (mimetype.takeWhile fun c => c ≠ ';') t) :
    Decides (forMimetype mimetype) (List.Forall₂ SameLetter t "text/x-tony".toList)
      (.unservedMimetype mimetype) := by
  rw [forMimetype, h.trim_eq]
  exact decides_find serves_tony_iff

theorem decides_forFile (path : List Char) :
    Decides (forFile path)
      (∃ name, (Path.steps path).getLast? = some name ∧ name ≠ ['.', '.'] ∧ 5 < bytes name ∧
        ".tony".toList <:+ name) (.unhandledFile path) := by
  rw [forFile]
  refine decides_find ?_
  rw [handles_tony_iff, Path.fileName?, Path.components_eq]
  cases (Path.steps path).getLast? with
  | none => exact iff_of_false (fun h => absurd h.1 (by decide)) nofun
  | some name =>
    by_cases hup : name = ['.', '.']
    · subst hup
      exact iff_of_false (fun h => absurd h.1 (by decide)) fun ⟨_, hname, hne, _⟩ =>
        hne (Option.some.inj hname).symm
    · have hkeep : (some name).filter (fun part => part ≠ ['.', '.']) = some name := by
        rw [Option.filter_some, if_pos (decide_eq_true hup)]
      rw [hkeep, Option.getD_some]
      constructor
      · rintro ⟨hlong, hends⟩
        exact ⟨name, rfl, hup, hlong, hends⟩
      · rintro ⟨other, hother, -, hlong, hends⟩
        obtain rfl := Option.some.inj hother
        exact ⟨hlong, hends⟩

theorem exists_forFile_iff {path other : List Char}
    (h : Path.fileName? path = Path.fileName? other) :
    (∃ l, forFile path = .ok l) ↔ ∃ l, forFile other = .ok l := by
  rw [forFile, forFile, (decides_find Iff.rfl).found_iff, (decides_find Iff.rfl).found_iff, h]

/-- What each lookup makes of a text. A directory before a path makes no difference to it, and neither
does a slash at its end, with or without a single dot. -/
theorem decides_lookups :
    (∀ name, ∃ t, IsTrimmed name t ∧
      Decides (withName name) (List.Forall₂ SameLetter t "tony".toList) (.unknownName t)) ∧
    (∀ mimetype, ∃ essence rest t, mimetype = essence ++ rest ∧ ';' ∉ essence ∧
      (∀ c ∈ rest.head?, c = ';') ∧ IsTrimmed essence t ∧
      Decides (forMimetype mimetype) (List.Forall₂ SameLetter t "text/x-tony".toList)
        (.unservedMimetype mimetype)) ∧
    (∀ path, Decides (forFile path)
      (∃ name, (Path.steps path).getLast? = some name ∧ name ≠ ['.', '.'] ∧ 5 < bytes name ∧
        ".tony".toList <:+ name) (.unhandledFile path)) ∧
    ∀ directory path, Path.steps path ≠ [] →
      ∀ other ∈ [directory ++ '/' :: path, path ++ ['/'], path ++ ['/', '.']],
        ((∃ l, forFile other = .ok l) ↔ ∃ l, forFile path = .ok l) := by
  refine ⟨fun name => ?_, fun mimetype => ?_, decides_forFile, fun directory path hpath => ?_⟩
  · exact ⟨_, Text.isTrimmed_trim name, decides_withName (Text.isTrimmed_trim name)⟩
  · refine ⟨mimetype.takeWhile fun c => c ≠ ';', mimetype.dropWhile fun c => c ≠ ';', _,
      List.takeWhile_append_dropWhile.symm, ?_, ?_, Text.isTrimmed_trim _,
      decides_forMimetype (Text.isTrimmed_trim _)⟩
    · intro hmem
      have hne := List.mem_takeWhile_imp hmem
      exact absurd hne (by decide)
    · intro c hc
      have hnot := List.head?_dropWhile_not (fun c => decide (c ≠ ';')) mimetype
      rw [Option.mem_def.1 hc] at hnot
      exact of_not_not (of_decide_eq_false hnot)
  · rw [List.forall_mem_cons, List.forall_mem_cons, List.forall_mem_singleton]
    refine ⟨exists_forFile_iff ?_, exists_forFile_iff ?_, exists_forFile_iff ?_⟩
    · rw [Path.fileName?_of_append, if_neg hpath]
    · exact (Path.fileName?_of_append path []).trans (if_pos rfl)
    · exact (Path.fileName?_of_append path ['.']).trans (if_pos rfl)

theorem decides_lookups_up :
    Path.steps "b.tony/.".toList ≠ [] ∧ withName "\u2003ToNY\n".toList = .ok .tony ∧
      (∃ l, forFile ("x/..".toList ++ '/' :: "b.tony/.".toList) = .ok l) ∧
      ¬ ∃ l, forFile "x/b.tony/..".toList = .ok l := by
  obtain ⟨hname, -, hfile, hplace⟩ := decides_lookups
  have hsteps : Path.steps "b.tony/.".toList ≠ [] := by decide
  have hfound : ∃ l, forFile "b.tony/.".toList = .ok l := ⟨.tony, rfl⟩
  refine ⟨hsteps, ?_, (hplace _ _ hsteps _ (List.mem_cons_self ..)).2 hfound, ?_⟩
  · obtain ⟨t, htrimmed, hdecides⟩ := hname "\u2003ToNY\n".toList
    obtain rfl : "ToNY".toList = t := htrimmed.trim_eq
    have hspelled : List.Forall₂ SameLetter "ToNY".toList "tony".toList :=
      .cons (.inr (.inl ⟨rfl, rfl⟩)) (.cons (.inl rfl)
        (.cons (.inr (.inl ⟨rfl, rfl⟩)) (.cons (.inr (.inl ⟨rfl, rfl⟩)) .nil)))
    obtain ⟨l, hl⟩ := hdecides.found_iff.2 hspelled
    rw [hl, hdecides.eq_tony l hl]
  · have hlast : (Path.steps "x/b.tony/..".toList).getLast? = some ['.', '.'] := by decide
    rw [(hfile _).found_iff]
    rintro ⟨name, hname, hne, -⟩
    rw [hlast] at hname
    exact hne (Option.some.inj hname).symm

end Language
end Tony
