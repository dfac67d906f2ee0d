import SyncBridge.Auth.Service

/-!
# A deployment with one session

The inputs of the concrete runs.  A token is its own payload as text, after the
secret it was signed with, and the hash of a text is the text.
-/

namespace SyncBridge.Auth.Sample

/-! ## Text -/

def base : Nat := 50000

def writeNat (value : Nat) : List Char :=
  List.replicate (value / base) '1' ++ ['0', Char.ofNat (value % base)]

def readNat : List Char → Option (Nat × List Char)
  | '1' :: rest => (readNat rest).map fun read => (read.1 + base, read.2)
  | '0' :: digit :: rest => some (digit.toNat, rest)
  | _ => none

def writeText (text : String) : List Char :=
  writeNat text.toList.length ++ text.toList

def readText (chars : List Char) : Option (String × List Char) :=
  (readNat chars).map fun (length, rest) =>
    (String.ofList (rest.take length), rest.drop length)

def writeId : Option Id → List Char
  | none => writeNat 0
  | some id => writeNat (id + 1)

def readId (chars : List Char) : Option (Option Id × List Char) :=
  (readNat chars).map fun (value, rest) =>
    (if value = 0 then none else some (value - 1), rest)

def writeRole : UserRole → List Char
  | .user => writeNat 0
  | .operator => writeNat 1
  | .admin => writeNat 2

def readRole (chars : List Char) : Option (UserRole × List Char) :=
  (readNat chars).map fun (value, rest) =>
    (match value with | 0 => .user | 1 => .operator | _ => .admin, rest)

def writeInt : ℤ → List Char
  | .ofNat value => writeNat (2 * value)
  | .negSucc value => writeNat (2 * value + 1)

def readInt (chars : List Char) : Option (ℤ × List Char) :=
  (readNat chars).map fun (value, rest) =>
    (if value % 2 = 0 then .ofNat (value / 2) else .negSucc (value / 2), rest)

@[simp] theorem readNat_writeNat (value : Nat) (rest : List Char) :
    readNat (writeNat value ++ rest) = some (value, rest) := by
  have hdigit : (Char.ofNat (value % base)).toNat = value % base := by
    have hlt : value % base < 50000 := Nat.mod_lt _ (by decide)
    have hvalid : (value % base).isValidChar := Or.inl (by omega)
    rw [Char.ofNat, dif_pos hvalid]
    rfl
  have hread : ∀ count, readNat (List.replicate count '1' ++
      ['0', Char.ofNat (value % base)] ++ rest) =
        some (value % base + count * base, rest) := by
    intro count
    induction count with
    | zero => simp [readNat, hdigit]
    | succ count ih =>
        simp only [List.replicate_succ, List.cons_append, readNat, ih,
          Option.map_some]
        congr 2
        ring
  rw [writeNat, hread, Nat.mul_comm, Nat.mod_add_div]

@[simp] theorem readText_writeText (text : String) (rest : List Char) :
    readText (writeText text ++ rest) = some (text, rest) := by
  simp [readText, writeText]

@[simp] theorem readId_writeId (id : Option Id) (rest : List Char) :
    readId (writeId id ++ rest) = some (id, rest) := by
  cases id <;> simp [readId, writeId]

@[simp] theorem readRole_writeRole (role : UserRole) (rest : List Char) :
    readRole (writeRole role ++ rest) = some (role, rest) := by
  cases role <;> simp [readRole, writeRole]

@[simp] theorem readInt_writeInt (value : ℤ) (rest : List Char) :
    readInt (writeInt value ++ rest) = some (value, rest) := by
  cases value with
  | ofNat value => simp [readInt, writeInt]
  | negSucc value =>
      have hodd : (2 * value + 1) % 2 = 1 := by omega
      have hhalf : (2 * value + 1) / 2 = value := by omega
      simp [readInt, writeInt, hodd, hhalf]

/-! ## Tokens -/

def sign (secret : String) (payload : JwtPayload) (_ expiresAt : ℤ) : String :=
  String.ofList (writeText secret ++ (writeNat payload.sub ++
    (writeText payload.email ++ (writeRole payload.role ++
      (writeId payload.jti ++ (writeId payload.rtid ++
        writeInt expiresAt))))))

def verify (secret token : String) (now : ℤ) : Option JwtPayload := do
  let (signedWith, rest) ← readText token.toList
  let (sub, rest) ← readNat rest
  let (email, rest) ← readText rest
  let (role, rest) ← readRole rest
  let (jti, rest) ← readId rest
  let (rtid, rest) ← readId rest
  let (expiresAt, _) ← readInt rest
  if signedWith.toList = secret.toList ∧ now < expiresAt then
    some ⟨sub, email, role, jti, rtid⟩
  else none

theorem verify_sign (secret : String) (payload : JwtPayload)
    (issuedAt expiresAt now : ℤ) :
    verify secret (sign secret payload issuedAt expiresAt) now =
      if now < expiresAt then some payload else none := by
  have hexpires := readInt_writeInt expiresAt []
  rw [List.append_nil] at hexpires
  by_cases hlate : now < expiresAt <;> simp [verify, sign, hexpires, hlate]

def jwt : Jwt := ⟨sign, verify, verify_sign⟩

def bcrypt : Bcrypt where
  hash text _ := text
  compare text hash := text.toList = hash.toList
  compare_hash _ _ := decide_eq_true rfl

def lowerCase : LowerCase where
  apply := SyncBridge.toLowerCase
  apply_apply text := by
    have hlower : lowerChar ∘ lowerChar = lowerChar := funext lowerChar_lowerChar
    simp [SyncBridge.toLowerCase, hlower]
  trim_apply text := by
    simp [SyncBridge.toLowerCase, trim, trimChars_map isWhiteSpace_lowerChar]

def env : AuthEnv := ⟨"a", some "r", jwt, bcrypt, lowerCase⟩

/-! ## The data -/

def user : User := ⟨1, "u", "p", "User", .user, 0⟩

def payload : JwtPayload := ⟨1, "u", .user, some 3, some 2⟩

def refreshToken : String := sign "r" payload 0 2592000

def record : RefreshToken := ⟨2, 1, refreshToken, 2592000000, 0, none⟩

def store : AuthStore := ⟨0, 10, [user], [record], []⟩

end SyncBridge.Auth.Sample
