import Chkdraft.Scenario.SaveLoad

/-!
# Passwords and the trailing bytes of a file

A partial header at the end of a file is kept as up to seven trailing bytes.
Seven of them are a password: the first bytes of a number that is read from the
hash of the text.  `Scenario::write` emits the sections only, so what it writes
has no trailing bytes.
-/

namespace Chkdraft.Scenario

open Binary Chk Sections

section Passwords

/- SHA-256, as the hexadecimal digits of the hash it gives for a text. -/
variable (sha256 : List UInt8 → List (Fin 16))

/-- The bytes of the number that `stoull` reads from the first eight digits of
a hash, unless the hash is too short. -/
def hashBytes (password : List UInt8) : Option (List UInt8) :=
  let hashStr := sha256 password
  if 7 ≤ hashStr.length then
    let eightHashBytes := (hashStr.take 8).foldl (fun value digit => 16 * value + digit.val) 0
    some (littleEndian 8 eightHashBytes)
  else
    none

namespace LoadedFile

def hasPassword (file : LoadedFile) : Bool := file.tailLength = 7

/-- `Scenario::isPassword`: the tail bytes are the first ones of the hash. -/
def isPassword (file : LoadedFile) (password : List UInt8) : Bool :=
  if file.hasPassword then
    match hashBytes sha256 password with
    | some hash =>
        (List.range file.tailLength).all fun i =>
          file.tailData[i]? = hash[i]?
    | none => false
  else
    false

/-- `Scenario::setPassword`: whether the password was set, and the scenario
then. -/
def setPassword (file : LoadedFile) (oldPass newPass : List UInt8) : Bool × LoadedFile :=
  if file.isPassword sha256 oldPass then
    if newPass = [] then
      (true,
        { file with
          tailData := List.replicate file.tailLength 0 ++ file.tailData.drop file.tailLength
          tailLength := 0 })
    else
      match hashBytes sha256 newPass with
      | some hash =>
          (true,
            { file with
              tailData := hash.take 7 ++ file.tailData.drop 7
              tailLength := 7 })
      | none => (false, file)
  else
    (false, file)

/-- A run of calls with an old and a new password each. -/
def setPasswords (file : LoadedFile) (calls : List (List UInt8 × List UInt8)) : LoadedFile :=
  calls.foldl (fun current call => (current.setPassword sha256 call.1 call.2).2) file

end LoadedFile

/-- Reading what was written gives the trailing bytes of the scenario, and the
same answers about its password. -/
def SavesTail (file : LoadedFile) (written : List UInt8) : Prop :=
  ∃ reloaded, ReadsTo written reloaded ∧ reloaded.tailLength = file.tailLength ∧
    reloaded.tailData = file.tailData ∧
    reloaded.hasPassword = file.hasPassword ∧
    ∀ password, reloaded.isPassword sha256 password = file.isPassword sha256 password

variable {sha256}

theorem length_of_hashBytes {password hash : List UInt8}
    (hhash : hashBytes sha256 password = some hash) : hash.length = 8 := by
  unfold hashBytes at hhash
  simp only at hhash
  split at hhash
  · rw [← Option.some.inj hhash, length_littleEndian]
  · cases hhash

theorem hasPassword_of_isPassword {file : LoadedFile} {password : List UInt8}
    (hpassword : file.isPassword sha256 password = true) :
    file.tailLength = 7 := by
  unfold LoadedFile.isPassword at hpassword
  split at hpassword
  · rename_i hhas
    exact of_decide_eq_true hhas
  · cases hpassword

/-- Setting a password changes nothing but the trailing bytes, which stay
seven. -/
structure OtherTail (before after : LoadedFile) : Prop where
  savedSections_eq : after.savedSections = before.savedSections
  write_eq : after.write = before.write
  savedTriggers_eq : after.savedTriggers = before.savedTriggers
  savedEntries_eq : after.savedEntries = before.savedEntries
  tailWhole : TailWhole before.tailData before.tailLength →
    TailWhole after.tailData after.tailLength

theorem OtherTail.refl (file : LoadedFile) : OtherTail file file := ⟨rfl, rfl, rfl, rfl, id⟩

theorem OtherTail.trans {first second third : LoadedFile}
    (hleft : OtherTail first second) (hright : OtherTail second third) :
    OtherTail first third :=
  ⟨hright.savedSections_eq.trans hleft.savedSections_eq, hright.write_eq.trans hleft.write_eq,
    hright.savedTriggers_eq.trans hleft.savedTriggers_eq,
    hright.savedEntries_eq.trans hleft.savedEntries_eq,
    fun hwhole => hright.tailWhole (hleft.tailWhole hwhole)⟩

theorem otherTail_setPassword (file : LoadedFile) (oldPass newPass : List UInt8) :
    OtherTail file (file.setPassword sha256 oldPass newPass).2 := by
  unfold LoadedFile.setPassword
  split
  · rename_i hpassword
    have hseven := hasPassword_of_isPassword hpassword
    split
    · refine ⟨rfl, rfl, rfl, rfl, fun hwhole => ?_⟩
      have hnone : file.tailData.drop 7 = [] := List.drop_of_length_le (by rw [hwhole.length_eq])
      simp only [hseven, hnone, List.append_nil]
      exact ⟨rfl, Nat.zero_le 7, fun _ => rfl⟩
    · split
      · rename_i hash hhash
        refine ⟨rfl, rfl, rfl, rfl, fun hwhole => ?_⟩
        have hnone : file.tailData.drop 7 = [] := List.drop_of_length_le (by rw [hwhole.length_eq])
        simp only [hnone, List.append_nil]
        refine ⟨?_, le_rfl, fun hzero => absurd hzero (by decide)⟩
        rw [List.length_take, length_of_hashBytes hhash]
        rfl
      · exact OtherTail.refl file
  · exact OtherTail.refl file

theorem otherTail_setPasswords (file : LoadedFile) (calls : List (List UInt8 × List UInt8)) :
    OtherTail file (file.setPasswords sha256 calls) := by
  induction calls generalizing file with
  | nil => exact OtherTail.refl file
  | cons call rest ih =>
      exact (otherTail_setPassword file call.1 call.2).trans (ih _)

/-- The answers about a password depend on the trailing bytes only. -/
theorem isPassword_congr {left right : LoadedFile} (hlength : left.tailLength = right.tailLength)
    (hdata : left.tailData = right.tailData) (password : List UInt8) :
    left.isPassword sha256 password = right.isPassword sha256 password := by
  unfold LoadedFile.isPassword LoadedFile.hasPassword
  rw [hlength, hdata]

theorem ReadsTo.tailWhole {bytes : List UInt8} {file : LoadedFile} (hreads : ReadsTo bytes file) :
    TailWhole file.tailData file.tailLength := by
  obtain ⟨state, selected, hloaded⟩ := hreads.exists_loaded
  rw [hloaded.tailData_eq, hloaded.tailLength_eq]
  exact hloaded.consistent.tailWhole

/-- A loaded scenario, with any passwords set, whose sections are framed as
they are read: its trailing bytes survive a save exactly when there are none
and the links of the triggers that were saved can be repaired. -/
theorem savesTail_iff {bytes written : List UInt8} {loaded file : LoadedFile}
    {calls : List (List UInt8 × List UInt8)} (hreads : ReadsTo bytes loaded)
    (hcalls : loaded.setPasswords sha256 calls = file)
    (hwrite : file.write = .ok written)
    (hframed : Framed file.savedSections) :
    SavesTail sha256 file written ↔ file.tailLength = 0 ∧
        ∀ index, Adoptable file.savedTriggers file.savedEntries index := by
  have hother : OtherTail loaded file := by
    rw [← hcalls]
    exact otherTail_setPasswords loaded calls
  rw [hother.write_eq] at hwrite
  rw [hother.savedSections_eq] at hframed
  rw [hother.savedTriggers_eq, hother.savedEntries_eq]
  obtain ⟨hreloads, htail⟩ := reloads_iff hreads hwrite hframed
  rw [← hreloads]
  constructor
  · rintro ⟨reloaded, hreloaded, hsame, -⟩
    rw [← hsame]
    exact ⟨(htail reloaded hreloaded).1, reloaded, hreloaded⟩
  · rintro ⟨hzero, reloaded, hreloaded⟩
    obtain ⟨hlength, hdata⟩ := htail reloaded hreloaded
    have hblank := (hother.tailWhole hreads.tailWhole).blank hzero
    have hsameLength := hlength.trans hzero.symm
    have hsameData := hdata.trans hblank.symm
    refine ⟨reloaded, hreloaded, hsameLength, hsameData, ?_, isPassword_congr hsameLength hsameData⟩
    unfold LoadedFile.hasPassword
    rw [hsameLength]

end Passwords

/-- A version and seven trailing bytes: the password is the letter a. -/
def passwordFile : List UInt8 := versionFrame ++ [0x12, 0x81, 0x97, 0xCA, 0, 0, 0]

def letterHash : List (Fin 16) := [12, 10, 9, 7, 8, 1, 1, 2, 12, 10, 1, 11, 11, 13, 12, 10,
    15, 10, 12, 2, 3, 1, 11, 3, 9, 10, 2, 3, 13, 12, 4, 13,
    10, 7, 8, 6, 14, 15, 15, 8, 1, 4, 7, 12, 4, 14, 7, 2,
    11, 9, 8, 0, 7, 7, 8, 5, 10, 15, 14, 14, 4, 8, 11, 11]

theorem exists_passwordFile : ∃ file, ReadsTo passwordFile file ∧ file.write = .ok versionFrame ∧
      Framed file.savedSections ∧ file.tailLength = 7 ∧
      file.tailData = [0x12, 0x81, 0x97, 0xCA, 0, 0, 0] := by
  obtain ⟨file, hreads, hcheck⟩ : ∃ file, ReadsTo passwordFile file ∧
      (decide (file.savedSections = [.struct versionSection]) &&
        decide (file.tailLength = 7) &&
        decide (file.tailData = [0x12, 0x81, 0x97, 0xCA, 0, 0, 0])) = true :=
    exists_readsTo_of_eval 3 (by decide +kernel)
  simp only [Bool.and_eq_true, decide_eq_true_eq] at hcheck
  obtain ⟨⟨hsaved, hlength⟩, hdata⟩ := hcheck
  refine ⟨file, hreads, ?_, ?_, hlength, hdata⟩
  · rw [LoadedFile.write, hsaved]
    decide
  · rw [hsaved]
    exact ⟨trivial, fun _ => rfl, trivial⟩

theorem exists_readsTo_versionFrame : ∃ file, ReadsTo versionFrame file := by
  obtain ⟨file, hreads, -⟩ : ∃ file, ReadsTo versionFrame file ∧ true = true :=
    exists_readsTo_of_eval 3 (by decide +kernel)
  exact ⟨file, hreads⟩

/-- Its password is cleared, and then the file is saved as it is. -/
theorem savesTail_cleared : ∃ loaded file, ReadsTo passwordFile loaded ∧ loaded.hasPassword = true ∧
      loaded.setPassword (fun _ => letterHash) [97] [] = (true, file) ∧
      SavesTail (fun _ => letterHash) file versionFrame := by
  obtain ⟨loaded, hreads, hwrite, hframed, hlength, hdata⟩ := exists_passwordFile
  have hpassword : loaded.isPassword (fun _ => letterHash) [97] = true := by
    unfold LoadedFile.isPassword LoadedFile.hasPassword
    rw [hlength, hdata]
    decide
  have hset : loaded.setPassword (fun _ => letterHash) [97] [] = (true,
      { loaded with
        tailData := List.replicate loaded.tailLength 0 ++ loaded.tailData.drop loaded.tailLength
        tailLength := 0 }) := by
    rw [LoadedFile.setPassword, if_pos hpassword, if_pos rfl]
  have hhas : loaded.hasPassword = true := by
    rw [LoadedFile.hasPassword, hlength]
    rfl
  refine ⟨loaded, _, hreads, hhas, hset, ?_⟩
  have hcalls : loaded.setPasswords (fun _ => letterHash) [([97], [])] =
      (loaded.setPassword (fun _ => letterHash) [97] []).2 := rfl
  rw [hset] at hcalls
  have hadoptable := (reloads_iff hreads hwrite hframed).1.mp exists_readsTo_versionFrame
  exact (savesTail_iff hreads hcalls hwrite hframed).mpr ⟨rfl, hadoptable⟩

/-- As long as it has its password, saving the file loses it. -/
theorem write_drops_password : ∃ file written, ReadsTo passwordFile file ∧ file.tailLength ≤ 7 ∧
      file.write = .ok written ∧
      ∀ sha256, ¬ SavesTail sha256 file written := by
  obtain ⟨file, hreads, hwrite, hframed, hlength, -⟩ := exists_passwordFile
  refine ⟨file, versionFrame, hreads, hlength.le, hwrite, ?_⟩
  rintro sha256 ⟨back, hback, hsame, -⟩
  have htail := (reloads_iff hreads hwrite hframed).2 back hback
  rw [htail.1, hlength] at hsame
  cases hsame

end Chkdraft.Scenario
