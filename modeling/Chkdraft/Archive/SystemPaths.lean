import Chkdraft.Core.Positions
import Chkdraft.Core.Scan

/-!
# Paths of files

Directories, file names and extensions are put together and taken apart again by
looking for the last separator.  Each function works out for itself whether the
directory ends in a separator or the extension starts with a dot.
-/

namespace Chkdraft.Archive

open Positions Scan

variable {directory : Text}

/-- `systemExtensionSeparator`. -/
def dot : UInt8 := 46

def hasExtension (systemFilePath extension : Text) : Bool :=
  let extensionIncludesSeparator : Bool := rfind [dot] extension = 0
  let found := rfind (if extensionIncludesSeparator then extension else dot :: extension)
    systemFilePath
  if extensionIncludesSeparator then
    found ≠ npos ∧ found = systemFilePath.length - extension.length
  else
    found ≠ npos ∧ found = systemFilePath.length - extension.length - 1

section SystemFileSeparator

variable (systemFileSeparator : Text)

def getSystemFileName (systemFilePath : Text) : Text :=
  let lastSeparator := rfind systemFileSeparator systemFilePath
  if lastSeparator = npos then
    systemFilePath
  else if systemFilePath ≠ [] ∧
      lastSeparator = systemFilePath.length - systemFileSeparator.length then
    []
  else if 0 ≤ lastSeparator ∧
      lastSeparator < systemFilePath.length - systemFileSeparator.length then
    systemFilePath.drop (lastSeparator + systemFileSeparator.length).toNat
  else
    systemFilePath

def getSystemFileDirectory (systemFilePath : Text) (includeTrailingSeparator : Bool) : Text :=
  let lastSeparator := rfind systemFileSeparator systemFilePath
  if lastSeparator = npos then
    []
  else if 0 ≤ lastSeparator ∧ lastSeparator < systemFilePath.length then
    if includeTrailingSeparator then
      systemFilePath.take (lastSeparator + systemFileSeparator.length).toNat
    else
      systemFilePath.take lastSeparator.toNat
  else
    systemFilePath

/-- The last separator is not compared with `npos` here. -/
def makeSystemFilePath (systemDirectory fileName : Text) : Text :=
  if rfind systemFileSeparator systemDirectory =
      systemDirectory.length - systemFileSeparator.length then
    systemDirectory ++ fileName
  else
    systemDirectory ++ systemFileSeparator ++ fileName

end SystemFileSeparator

def makeExtSystemFilePath (systemFilePath extension : Text) : Text :=
  if startsWith [dot] extension then
    systemFilePath ++ extension
  else
    systemFilePath ++ [dot] ++ extension

/-- The overload that takes a directory and a file name. -/
def makeExtSystemFilePathIn (systemFileSeparator systemDirectory fileName
    extension : Text) : Text :=
  let lastSeparator := rfind systemFileSeparator systemDirectory
  let directoryIncludesSeparator : Bool := lastSeparator ≠ npos ∧
    lastSeparator = systemDirectory.length - systemFileSeparator.length
  let extensionIncludesSeparator := startsWith [dot] extension
  if directoryIncludesSeparator then
    if extensionIncludesSeparator then
      systemDirectory ++ fileName ++ extension
    else
      systemDirectory ++ fileName ++ [dot] ++ extension
  else
    if extensionIncludesSeparator then
      systemDirectory ++ systemFileSeparator ++ fileName ++ extension
    else
      systemDirectory ++ systemFileSeparator ++ fileName ++ [dot] ++ extension

/-- A path comes apart into directory and name, a directory and a name go
together in one step or two and come apart again, and a path has the extension
it was given. -/
structure PathsCohere (systemFileSeparator path directory fileName extension : Text) : Prop where
  split : getSystemFileDirectory systemFileSeparator path true ++
    getSystemFileName systemFileSeparator path = path
  extended : makeExtSystemFilePathIn systemFileSeparator directory fileName extension =
    makeExtSystemFilePath (makeSystemFilePath systemFileSeparator directory fileName) extension
  named : getSystemFileName systemFileSeparator
    (makeSystemFilePath systemFileSeparator directory fileName) = fileName
  hasExtension : hasExtension (makeExtSystemFilePath path extension) extension = true

/-- The directory is not one character short of a separator, the separator is
the last one in front of the name, and an extension with a second dot is put
behind a dot. -/
structure MeetsPaths (systemFileSeparator path directory fileName extension : Text) : Prop where
  directory : directory.length + 1 ≠ systemFileSeparator.length
  separator : last? systemFileSeparator (systemFileSeparator ++ fileName) = some 0
  extension : ∀ rest, extension = dot :: rest → dot ∈ rest → path.getLast? = some dot

section Separators

variable {systemFileSeparator : Text}

section

variable {path : Text} {position : ℕ} (hnonempty : systemFileSeparator ≠ [])
  (hlast : last? systemFileSeparator path = some position)

include hnonempty hlast

theorem getSystemFileName_eq : getSystemFileName systemFileSeparator path =
      path.drop (position + systemFileSeparator.length) := by
  obtain ⟨before, rest, rfl, rfl⟩ := exists_of_last? hlast
  have hpos := List.length_pos_iff.mpr hnonempty
  rw [getSystemFileName, rfind, hlast]
  simp only [npos, List.length_append]
  rw [if_neg (by omega)]
  split
  · next hend =>
      have hrest : rest = [] := by
        rw [← List.length_eq_zero_iff]
        omega
      simp [hrest]
  · next hmiddle =>
      have hne : rest.length ≠ 0 := by
        intro hzero
        refine hmiddle ⟨by simp [hnonempty], ?_⟩
        omega
      rw [if_pos (by omega)]
      rfl

theorem getSystemFileDirectory_eq : getSystemFileDirectory systemFileSeparator path true =
      path.take (position + systemFileSeparator.length) := by
  obtain ⟨before, rest, rfl, rfl⟩ := exists_of_last? hlast
  have hpos := List.length_pos_iff.mpr hnonempty
  rw [getSystemFileDirectory, rfind, hlast]
  simp only [npos, List.length_append]
  rw [if_neg (by omega), if_pos (by omega)]
  rfl

end

theorem directory_append_name (hnonempty : systemFileSeparator ≠ []) (path : Text) :
    getSystemFileDirectory systemFileSeparator path true ++
      getSystemFileName systemFileSeparator path = path := by
  cases hlast : last? systemFileSeparator path with
  | none =>
      rw [getSystemFileDirectory, getSystemFileName, rfind, hlast, if_pos rfl,
        if_pos rfl, List.nil_append]
  | some position =>
      rw [getSystemFileDirectory_eq hnonempty hlast,
        getSystemFileName_eq hnonempty hlast, List.take_append_drop]

/-- One character short of a separator, the difference of the lengths is
`npos`, which is what is found. -/
theorem rfind_eq_sub_iff (hdirectory : directory.length + 1 ≠ systemFileSeparator.length) :
    rfind systemFileSeparator directory = directory.length - systemFileSeparator.length ↔
      ∃ before, directory = before ++ systemFileSeparator := by
  constructor
  · intro hrfind
    cases hlast : last? systemFileSeparator directory with
    | none =>
        simp only [rfind, hlast, npos] at hrfind
        omega
    | some position =>
        obtain ⟨before, rest, rfl, rfl⟩ := exists_of_last? hlast
        simp only [rfind, hlast, List.length_append] at hrfind
        have hrest : rest = [] := by
          rw [← List.length_eq_zero_iff]
          omega
        exact ⟨before, by rw [hrest, List.append_nil]⟩
  · rintro ⟨before, rfl⟩
    rw [rfind, last?_append_self]
    simp

theorem extended_iff (hnonempty : systemFileSeparator ≠ []) (directory fileName extension : Text) :
    makeExtSystemFilePathIn systemFileSeparator directory fileName extension =
        makeExtSystemFilePath (makeSystemFilePath systemFileSeparator directory fileName)
          extension ↔
      directory.length + 1 ≠ systemFileSeparator.length := by
  rw [makeExtSystemFilePathIn, makeExtSystemFilePath, makeSystemFilePath]
  by_cases hdirectory : directory.length + 1 = systemFileSeparator.length
  · refine iff_of_false (fun heq => ?_) (not_not_intro hdirectory)
    have hnone : rfind systemFileSeparator directory = npos := by
      rw [rfind, last?_eq_none_of_length_lt (by omega)]
    have hwraps : npos = (directory.length : ℤ) - systemFileSeparator.length := by
      rw [npos]
      omega
    have hlength := congrArg List.length heq
    have hpos := List.length_pos_iff.mpr hnonempty
    simp only [hnone, ← hwraps, ne_eq, not_true_eq_false, false_and,
      decide_false, Bool.false_eq_true, if_false, if_true] at hlength
    split at hlength <;>
      simp only [List.length_append] at hlength <;>
      omega
  · refine iff_of_true ?_ hdirectory
    by_cases hend : rfind systemFileSeparator directory =
        directory.length - systemFileSeparator.length
    · have hfound : rfind systemFileSeparator directory ≠ npos := by
        rw [hend, npos]
        omega
      simp [hend, hend ▸ hfound]
    · simp [hend]

/-- A directory that does not fall one short of a separator ends in one, or is
given one. -/
theorem exists_makeSystemFilePath
    (hdirectory : directory.length + 1 ≠ systemFileSeparator.length) (fileName : Text) :
    ∃ before, makeSystemFilePath systemFileSeparator directory fileName =
      before ++ (systemFileSeparator ++ fileName) := by
  rw [makeSystemFilePath]
  split
  · next hend =>
      obtain ⟨before, rfl⟩ := (rfind_eq_sub_iff hdirectory).mp hend
      exact ⟨before, List.append_assoc _ _ _⟩
  · exact ⟨directory, List.append_assoc _ _ _⟩

theorem named_iff (hnonempty : systemFileSeparator ≠ [])
    (hdirectory : directory.length + 1 ≠ systemFileSeparator.length) (fileName : Text) :
    getSystemFileName systemFileSeparator
        (makeSystemFilePath systemFileSeparator directory fileName) = fileName ↔
      last? systemFileSeparator (systemFileSeparator ++ fileName) = some 0 := by
  obtain ⟨before, hmake⟩ := exists_makeSystemFilePath hdirectory fileName
  obtain ⟨position, hlast⟩ := exists_last?_append systemFileSeparator fileName
  rw [hmake, getSystemFileName_eq hnonempty (last?_append hlast before),
    Nat.add_assoc, ← List.drop_drop, List.drop_left, Nat.add_comm,
    ← List.drop_drop, List.drop_left, hlast, Option.some_inj]
  constructor
  · intro hdrop
    obtain ⟨other, rest, hsplit, rfl⟩ := exists_of_last? hlast
    have hdropped := congrArg List.length hdrop
    have hwhole := congrArg List.length hsplit
    simp only [List.length_drop, List.length_append] at hdropped hwhole
    omega
  · rintro rfl
    rfl

end Separators

section Extensions

variable {path extension : Text}

/-- A path has the extension that stands at its end, seen with its dot. -/
theorem rfind_append_self (path pattern : Text) :
    rfind pattern (path ++ pattern) = path.length := by
  rw [rfind, last?_append_self]

theorem rfind_dot_eq_zero_iff : rfind [dot] extension = 0 ↔
      ∃ rest, extension = dot :: rest ∧ dot ∉ rest := by
  constructor
  · intro hrfind
    cases hlast : last? [dot] extension with
    | none => simp [rfind, hlast, npos] at hrfind
    | some position =>
        have hfirst : position = 0 := by simpa [rfind, hlast] using hrfind
        obtain ⟨before, rest, rfl, hbefore⟩ := exists_of_last? hlast
        rw [hfirst, List.length_eq_zero_iff] at hbefore
        subst hbefore
        exact ⟨rest, rfl, not_mem_of_last? (hlast.trans (by rw [hfirst]; rfl))⟩
  · rintro ⟨rest, rfl, hrest⟩
    rw [rfind, last?_singleton_cons hrest]
    rfl

theorem startsWith_dot_iff :
    startsWith [dot] extension = true ↔ ∃ rest, extension = dot :: rest := by
  rw [startsWith, List.isPrefixOf_iff_prefix]
  constructor
  · rintro ⟨rest, rfl⟩
    exact ⟨rest, rfl⟩
  · rintro ⟨rest, rfl⟩
    exact ⟨rest, rfl⟩

theorem rfind_dot_cons_iff {rest : Text} :
    (rfind (dot :: dot :: rest) (path ++ dot :: rest) ≠ npos ∧
      rfind (dot :: dot :: rest) (path ++ dot :: rest) =
        (path ++ dot :: rest).length - (dot :: rest).length - 1) ↔
      path.getLast? = some dot := by
  constructor
  · rintro ⟨hfound, hlast⟩
    cases hposition : last? (dot :: dot :: rest) (path ++ dot :: rest) with
    | none => simp [rfind, hposition] at hfound
    | some position =>
        obtain ⟨before, behind, hsplit, rfl⟩ := exists_of_last? hposition
        have hlength := congrArg List.length hsplit
        simp only [rfind, hposition, List.length_append, List.length_cons] at hlast hlength
        have hbehind : behind = [] := by
          rw [← List.length_eq_zero_iff]
          omega
        rw [hbehind, List.append_nil] at hsplit
        have hpath : path = before ++ [dot] := by
          rw [← List.append_left_inj (dot :: rest), hsplit, List.append_assoc]
          rfl
        rw [hpath, List.getLast?_concat]
  · intro hdot
    obtain ⟨before, rfl⟩ := List.getLast?_eq_some_iff.mp hdot
    rw [List.append_assoc, List.singleton_append, rfind_append_self, npos]
    simp only [List.length_append, List.length_cons]
    omega

theorem hasExtension_iff : hasExtension (makeExtSystemFilePath path extension) extension = true ↔
      ∀ rest, extension = dot :: rest → dot ∈ rest → path.getLast? = some dot := by
  by_cases hstarts : ∃ rest, extension = dot :: rest
  · obtain ⟨rest, rfl⟩ := hstarts
    rw [makeExtSystemFilePath, if_pos (startsWith_dot_iff.mpr ⟨rest, rfl⟩)]
    by_cases hmem : dot ∈ rest
    · -- The extension counts as one without its dot.
      have hsecond : ¬ rfind [dot] (dot :: rest) = 0 := by
        rw [rfind_dot_eq_zero_iff]
        rintro ⟨other, heq, hother⟩
        cases heq
        exact hother hmem
      simp only [hasExtension, hsecond, decide_false, Bool.false_eq_true,
        if_false, decide_eq_true_eq, rfind_dot_cons_iff]
      constructor
      · exact fun hdot _ _ _ => hdot
      · exact fun hall => hall rest rfl hmem
    · have honly : rfind [dot] (dot :: rest) = 0 := rfind_dot_eq_zero_iff.mpr ⟨rest, rfl, hmem⟩
      simp only [hasExtension, honly, decide_true, if_true,
        decide_eq_true_eq, rfind_append_self, npos, List.length_append]
      refine iff_of_true (by omega) fun other heq hother => ?_
      cases heq
      exact absurd hother hmem
  · have hnot : ¬ rfind [dot] extension = 0 := by
      rw [rfind_dot_eq_zero_iff]
      rintro ⟨rest, heq, -⟩
      exact hstarts ⟨rest, heq⟩
    rw [makeExtSystemFilePath, if_neg (mt startsWith_dot_iff.mp hstarts),
      List.append_assoc, List.singleton_append]
    simp only [hasExtension, hnot, decide_false, Bool.false_eq_true, if_false,
      decide_eq_true_eq, rfind_append_self, npos, List.length_append, List.length_cons]
    refine iff_of_true (by omega) fun rest heq _ => ?_
    exact absurd ⟨rest, heq⟩ hstarts

end Extensions

/-- The functions fit together if and only if their arguments meet the
conditions. -/
theorem pathsCohere_iff (systemFileSeparator path directory fileName
    extension : Text) (hnonempty : systemFileSeparator ≠ []) :
    PathsCohere systemFileSeparator path directory fileName extension ↔
      MeetsPaths systemFileSeparator path directory fileName extension := by
  constructor
  · rintro ⟨-, hextended, hnamed, hextension⟩
    have hdirectory := (extended_iff hnonempty _ _ _).mp hextended
    exact ⟨hdirectory, (named_iff hnonempty hdirectory _).mp hnamed, hasExtension_iff.mp hextension⟩
  · rintro ⟨hdirectory, hseparator, hextension⟩
    exact ⟨directory_append_name hnonempty path, (extended_iff hnonempty _ _ _).mpr hdirectory,
      (named_iff hnonempty hdirectory _).mpr hseparator,
      hasExtension_iff.mpr hextension⟩

/-- A separator of one character asks for a directory, and for a name without
it. -/
theorem MeetsPaths.of_singleton {separator : UInt8} {path fileName extension : Text}
    (hdirectory : directory ≠ []) (hname : separator ∉ fileName)
    (hextension : ∀ rest, extension = dot :: rest → dot ∈ rest → path.getLast? = some dot) :
    MeetsPaths [separator] path directory fileName extension where
  directory := by simpa using hdirectory
  separator := last?_singleton_cons hname
  extension := hextension

/-- `maps/a` with extension `scx`. -/
theorem pathsCohere_mapFile : PathsCohere [47] [97] [109, 97, 112, 115] [97] [115, 99, 120] :=
  (pathsCohere_iff [47] [97] [109, 97, 112, 115] [97] [115, 99, 120]
    (by decide)).mpr (.of_singleton (by decide) (by decide) (by rintro rest ⟨⟩))

/-- Without a directory the name is put behind a separator in one step, and not
in two. -/
theorem empty_directory_differs : ¬ PathsCohere [47] [] [] [97] [46, 116, 120, 116] := by
  rintro ⟨-, hextended, -, -⟩
  revert hextended
  decide

end Chkdraft.Archive
