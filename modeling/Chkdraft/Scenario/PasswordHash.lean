import Chkdraft.Scenario.Password
import Chkdraft.Scenario.Sha256Stream

/-!
# What a password protects

The seven trailing bytes are made of the first four bytes of the hash, in
reversed order, and of three zero bytes.  A map with a password is a lock whose
key is those bytes: a run of calls answers what the lock answers.
-/

namespace Chkdraft.Scenario

open Binary Chk Sections

/-- A function of the text that is what `SHA256` gives, whatever is in the
memory of the object and of its local array. -/
def ComputesHash (sha256 : List UInt8 → List (Fin 16)) : Prop :=
  ∀ text, ∃ (memory : SHA256) (extra : List UInt8) (after : SHA256),
    memory.m_buffer.length = 64 ∧ extra.length = 64 ∧
      memory.hashText extra text = .ok (sha256 text, after)

theorem ComputesHash.eq {sha256 : List UInt8 → List (Fin 16)}
    (hsha256 : ComputesHash sha256) : sha256 = SHA256.hashDigits := by
  funext text
  obtain ⟨memory, extra, after, hbuffer, hextra, hhash⟩ := hsha256 text
  have hwhole : (SHA256.Call.hashText extra text).extraWhole := hextra
  obtain ⟨same, hcall, -⟩ := SHA256.exists_call (SHA256.holds_reset hbuffer) hwhole
  have hanswer : memory.hashText extra text = .ok (SHA256.hashDigits text, same) := hcall
  rw [hhash] at hanswer
  exact (Prod.mk.inj (Except.ok.inj hanswer)).1

theorem computesHash_hashDigits : ComputesHash SHA256.hashDigits := by
  intro text
  obtain ⟨memory, hmemory⟩ : ∃ memory : SHA256, memory.m_buffer.length = 64 :=
    ⟨{ m_numBytes := 0, m_bufferSize := 0, m_buffer := List.replicate 64 0,
       m_hash := SHA256.initialHash }, List.length_replicate⟩
  have hwhole : (SHA256.Call.hashText
      (List.replicate 64 0) text).extraWhole := List.length_replicate
  obtain ⟨after, hcall, -⟩ := SHA256.exists_call (SHA256.holds_reset hmemory) hwhole
  exact ⟨memory.reset, _, after, hmemory, List.length_replicate, hcall⟩

/-- The trailing bytes that belong to a password. -/
def passwordKey (password : List UInt8) : List UInt8 :=
  ((SecureHash.digest password).take 4).reverse ++ [0, 0, 0]

theorem foldl_hexDigits (bytes : List UInt8) : (bytes.flatMap SHA256.hexDigits).foldl
        (fun value digit => 16 * value + digit.val) 0 =
      bigEndianValue bytes := by
  induction bytes using List.reverseRecOn with
  | nil => rfl
  | append_singleton bytes byte ih =>
      have hbyte : byte.toNat < 256 := byte.toNat_lt
      rw [List.flatMap_append, List.foldl_append, ih, bigEndianValue,
        bigEndianValue, List.reverse_append]
      simp only [List.flatMap_cons, List.flatMap_nil, List.append_nil, SHA256.hexDigits,
        List.foldl_cons, List.foldl_nil, List.reverse_cons, List.reverse_nil,
        List.nil_append, List.cons_append, littleEndianValue]
      omega

theorem length_flatMap_hexDigits (bytes : List UInt8) :
    (bytes.flatMap SHA256.hexDigits).length = 2 * bytes.length := by
  induction bytes with
  | nil => rfl
  | cons byte bytes ih =>
      rw [List.flatMap_cons, List.length_append, ih, List.length_cons]
      change 2 + _ = _
      omega

/-- The number read from the hash ends with four zero bytes. -/
theorem hashBytes_hashDigits (password : List UInt8) :
    hashBytes SHA256.hashDigits password = some (passwordKey password ++ [0]) := by
  have hdigest := SecureHash.length_digest password
  have hfour : ((SecureHash.digest password).take 4).length = 4 := by
    rw [List.length_take, hdigest]
    rfl
  have hlength : 7 ≤ (SHA256.hashDigits password).length := by
    rw [SHA256.hashDigits, length_flatMap_hexDigits, hdigest]
    decide
  have height : (SHA256.hashDigits password).take 8 =
      ((SecureHash.digest password).take 4).flatMap SHA256.hexDigits := by
    conv_lhs =>
      rw [SHA256.hashDigits, ← List.take_append_drop 4
        (SecureHash.digest password), List.flatMap_append]
    exact List.take_left' (by rw [length_flatMap_hexDigits, hfour])
  have hvalue : ∀ bytes : List UInt8, bytes.length = 4 →
      littleEndian 8 (bigEndianValue bytes) = bytes.reverse ++ [0, 0, 0, 0] := by
    intro bytes hbytes
    have hzeros := littleEndianValue_append_zeros bytes.reverse 4
    have hback := littleEndian_littleEndianValue (bytes.reverse ++ List.replicate 4 0)
    rw [hzeros, List.length_append, List.length_reverse, hbytes] at hback
    exact hback
  rw [hashBytes, if_pos hlength, height, foldl_hexDigits]
  change some (littleEndian 8 _) = _
  rw [hvalue _ hfour, passwordKey, List.append_assoc]
  rfl

theorem length_passwordKey (password : List UInt8) : (passwordKey password).length = 7 := by
  rw [passwordKey, List.length_append, List.length_reverse, List.length_take,
    SecureHash.length_digest]
  rfl

/-- What the passwords of a map come to: the trailing bytes, if there is a
password, and whether the map is protected. -/
structure Lock where
  key : Option (List UInt8)
  isProtected : Bool
deriving DecidableEq

/-- A call about a password. -/
inductive PasswordCall where
  | isPassword (password : List UInt8)
  | login (password : List UInt8)
  | setPassword (oldPass newPass : List UInt8)

namespace Lock

def opens (lock : Lock) (password : List UInt8) : Bool := lock.key = some (passwordKey password)

/-- What the lock answers, and the lock then. -/
def call (lock : Lock) : PasswordCall → Bool × Lock
  | .isPassword password => (lock.opens password, lock)
  | .login password =>
      (lock.opens password,
        if lock.opens password then { lock with isProtected := false }
        else lock)
  | .setPassword oldPass newPass =>
      (lock.opens oldPass,
        if lock.opens oldPass then
          { lock with
            key := if newPass = [] then none else some (passwordKey newPass) }
        else lock)

end Lock

namespace LoadedFile

/-- `Scenario::login`: whether the password was right, and the scenario
then. -/
def login (sha256 : List UInt8 → List (Fin 16)) (file : LoadedFile)
    (password : List UInt8) : Bool × LoadedFile :=
  if file.isPassword sha256 password then
    (true, { file with mapIsProtected := false })
  else
    (false, file)

/-- What a call about a password answers, and the scenario then. -/
def passwordCall (sha256 : List UInt8 → List (Fin 16)) (file : LoadedFile) :
    PasswordCall → Bool × LoadedFile
  | .isPassword password => (file.isPassword sha256 password, file)
  | .login password => file.login sha256 password
  | .setPassword oldPass newPass => file.setPassword sha256 oldPass newPass

def lock (file : LoadedFile) : Lock where
  key := if file.tailLength = 7 then some file.tailData else none
  isProtected := file.mapIsProtected

end LoadedFile

section

variable {file : LoadedFile} (htail : TailWhole file.tailData file.tailLength)

include htail

theorem isPassword_hashDigits (password : List UInt8) :
    file.isPassword SHA256.hashDigits password = file.lock.opens password := by
  have hlength := htail.length_eq
  have hkey := length_passwordKey password
  rw [LoadedFile.isPassword, LoadedFile.hasPassword, Lock.opens, LoadedFile.lock]
  by_cases hseven : file.tailLength = 7
  · rw [if_pos (decide_eq_true hseven), hashBytes_hashDigits]
    simp only [hseven, if_true, Option.some.injEq]
    rw [Bool.eq_iff_iff, List.all_eq_true, decide_eq_true_iff]
    constructor
    · intro hall
      apply List.ext_getElem?
      intro index
      by_cases hindex : index < 7
      · have hsame := of_decide_eq_true (hall index (List.mem_range.mpr hindex))
        rw [hsame, List.getElem?_append_left (by omega)]
      · rw [List.getElem?_eq_none (by omega), List.getElem?_eq_none (by omega)]
    · intro hsame index hindex
      have hlt := List.mem_range.mp hindex
      rw [decide_eq_true_iff, hsame, List.getElem?_append_left (by omega)]
  · rw [if_neg (by rwa [decide_eq_true_iff]), if_neg hseven]
    rfl

/-- Every call answers what the lock answers, and leaves its lock. -/
theorem passwordCall_lock (first : PasswordCall) :
    (file.passwordCall SHA256.hashDigits first).1 = (file.lock.call first).1 ∧
      (file.passwordCall SHA256.hashDigits first).2.lock = (file.lock.call first).2 ∧
      TailWhole (file.passwordCall SHA256.hashDigits first).2.tailData
        (file.passwordCall SHA256.hashDigits first).2.tailLength := by
  cases first with
  | isPassword password =>
      exact ⟨isPassword_hashDigits htail password, rfl, htail⟩
  | login password =>
      have hopens := isPassword_hashDigits htail password
      simp only [LoadedFile.passwordCall, LoadedFile.login, Lock.call, hopens]
      split
      · next hopen => exact ⟨hopen.symm, rfl, htail⟩
      · next hclosed =>
          exact ⟨(Bool.eq_false_of_not_eq_true hclosed).symm, rfl, htail⟩
  | setPassword oldPass newPass =>
      have hopens := isPassword_hashDigits htail oldPass
      have hkept := (otherTail_setPassword file oldPass newPass :
        OtherTail file (file.setPassword SHA256.hashDigits oldPass newPass).2).tailWhole htail
      refine ⟨?_, ?_, hkept⟩
      · simp only [LoadedFile.passwordCall, LoadedFile.setPassword, Lock.call, hopens]
        split
        · next hopen =>
            rw [hashBytes_hashDigits]
            split <;> exact hopen.symm
        · next hclosed => exact (Bool.eq_false_of_not_eq_true hclosed).symm
      · simp only [LoadedFile.passwordCall, LoadedFile.setPassword, Lock.call, hopens]
        split
        · rw [hashBytes_hashDigits]
          split
          · rfl
          · have htake : (passwordKey newPass ++ [0]).take 7 = passwordKey newPass :=
              List.take_left' (length_passwordKey newPass)
            simp only [LoadedFile.lock, if_true, htake,
              List.drop_of_length_le htail.length_eq.le, List.append_nil]
        · rfl

/-- What the calls of a run answer, and the state behind it. -/
def answers {S : Type} (call : S → PasswordCall → Bool × S) (state : S) :
    List PasswordCall → List Bool × S
  | [] => ([], state)
  | first :: calls =>
      let rest := answers call (call state first).2 calls
      ((call state first).1 :: rest.1, rest.2)

theorem answers_lock (calls : List PasswordCall) :
    (answers (LoadedFile.passwordCall SHA256.hashDigits) file calls).1 =
        (answers Lock.call file.lock calls).1 ∧
      (answers (LoadedFile.passwordCall SHA256.hashDigits) file calls).2.lock =
        (answers Lock.call file.lock calls).2 := by
  induction calls generalizing file with
  | nil => exact ⟨rfl, rfl⟩
  | cons first calls ih =>
      obtain ⟨hanswer, hlock, hnext⟩ := passwordCall_lock htail first
      obtain ⟨hanswers, hafter⟩ := ih hnext
      rw [hlock] at hanswers hafter
      exact ⟨congrArg₂ List.cons hanswer hanswers, hafter⟩

end

/-- A run of calls on a loaded map is the run of its lock, with the hash that
the program computes. -/
theorem answers_of_readsTo {sha256 : List UInt8 → List (Fin 16)}
    {bytes : List UInt8} {file : LoadedFile}
    (hsha256 : ComputesHash sha256) (hreads : ReadsTo bytes file)
    (calls : List PasswordCall) :
    (answers (LoadedFile.passwordCall sha256) file calls).1 =
        (answers Lock.call file.lock calls).1 ∧
      (answers (LoadedFile.passwordCall sha256) file calls).2.lock =
        (answers Lock.call file.lock calls).2 := by
  rw [hsha256.eq]
  exact answers_lock hreads.tailWhole calls

/-- The file with a password opens with the texts whose hash begins with the
bytes 202, 151, 129 and 18. -/
theorem answers_passwordFile : ∃ file, ReadsTo passwordFile file ∧
      (answers (LoadedFile.passwordCall SHA256.hashDigits) file [.login [97], .isPassword [98]]).1 =
          [decide (passwordKey [97] = [18, 129, 151, 202, 0, 0, 0]),
            decide (passwordKey [98] = [18, 129, 151, 202, 0, 0, 0])] := by
  obtain ⟨file, hreads, -, -, hlength, hdata⟩ := exists_passwordFile
  refine ⟨file, hreads, ?_⟩
  have hkey : file.lock.key = some [18, 129, 151, 202, 0, 0, 0] := by
    rw [LoadedFile.lock, if_pos hlength, hdata]
  rw [(answers_of_readsTo computesHash_hashDigits hreads _).1]
  simp only [answers, Lock.call, Lock.opens, hkey, Option.some.injEq, eq_comm]
  split <;> simp only [hkey, eq_comm, Option.some.injEq]

end Chkdraft.Scenario
