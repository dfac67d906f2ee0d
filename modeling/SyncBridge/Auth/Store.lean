import Mathlib.Data.List.Sort
import SyncBridge.Foundation.Pool
import SyncBridge.Foundation.Table
import SyncBridge.Schema

/-!
# Users and refresh tokens

The store of the authentication service and the operations its calls await:
queries of the database, and the signing, verifying and hashing that run off
the main thread.
-/

namespace SyncBridge.Auth

open SyncBridge.Foundation

inductive AuthFailure where
  | conflict (message : String)
  | unauthorized (message : String)
  | error (message : String)
  deriving DecidableEq, Repr

structure User where
  id : Id
  email : String
  passwordHash : String
  fullName : String
  role : UserRole
  createdAt : Time

structure RefreshToken where
  id : Id
  userId : Id
  tokenHash : String
  expiresAt : Time
  createdAt : Time
  revokedAt : Option Time

structure JwtPayload where
  sub : Id
  email : String
  role : UserRole
  jti : Option Id
  rtid : Option Id

/-! ## Tokens and hashes -/

/-- Signed tokens.  Times are in seconds; a token is accepted under the secret
it was signed with until it expires. -/
structure Jwt where
  sign : String → JwtPayload → (issuedAt expiresAt : ℤ) → String
  verify : String → String → (now : ℤ) → Option JwtPayload
  verify_sign : ∀ secret payload issuedAt expiresAt now,
    verify secret (sign secret payload issuedAt expiresAt) now =
      if now < expiresAt then some payload else none

structure Bcrypt where
  hash : String → (salt : Nat) → String
  compare : String → String → Bool
  compare_hash : ∀ text salt, compare text (hash text salt) = true

/-- `toLowerCase` of the language, for all of Unicode: it converts nothing that it
has converted already, and white space neither comes nor goes. -/
structure LowerCase where
  apply : String → String
  apply_apply : ∀ text, apply (apply text) = apply text
  trim_apply : ∀ text, trim (apply text) = apply (trim text)

structure AuthEnv where
  accessSecret : String
  refreshSecret : Option String
  jwt : Jwt
  bcrypt : Bcrypt
  toLowerCase : LowerCase

/-! ## Store -/

structure NewUser where
  email : String
  fullName : String
  passwordHash : String
  role : UserRole

structure NewRefreshToken where
  userId : Id
  tokenHash : String
  expiresAt : Time

/-- A column that is `none` is not written. -/
structure RefreshTokenData where
  tokenHash : Option String := none
  revokedAt : Option Time := none

def RefreshTokenData.apply (data : RefreshTokenData) (row : RefreshToken) :
    RefreshToken :=
  { row with
    tokenHash := data.tokenHash.getD row.tokenHash
    revokedAt := data.revokedAt.or row.revokedAt }

structure AuthStore where
  clock : Time
  nextId : Id
  users : List User
  refreshTokens : List RefreshToken
  auditLogs : List AuditLog

inductive AuthOp where
  | now
  | randomUUID
  | userFindUnique (id : Id)
  | userFindByEmail (email : String)
  | userCreate (data : NewUser)
  | refreshTokenCreate (data : NewRefreshToken)
  | refreshTokenFindUnique (id : Id)
  | refreshTokenFindMany (userId : Id) (now : Time) (includeRevoked : Bool)
  | refreshTokenUpdate (id : Id) (data : RefreshTokenData)
  | auditLogCreate (data : NewAuditLog)
  | signAsync (secret : String) (payload : JwtPayload) (expiresIn : Nat)
  | verifyAsync (secret token : String)
  | hash (text : String)
  | compare (text hash : String)

abbrev AuthOp.Res : AuthOp → Type
  | .now => Time
  | .randomUUID => Id
  | .userFindUnique _ => Option User
  | .userFindByEmail _ => Option User
  | .userCreate _ => User
  | .refreshTokenCreate _ => RefreshToken
  | .refreshTokenFindUnique _ => Option RefreshToken
  | .refreshTokenFindMany _ _ _ => List RefreshToken
  | .refreshTokenUpdate _ _ => RefreshToken
  | .auditLogCreate _ => Unit
  | .signAsync _ _ _ => String
  | .verifyAsync _ _ => JwtPayload
  | .hash _ => String
  | .compare _ _ => Bool

def AuthOp.fallible : AuthOp → Bool
  | .now => false
  | .randomUUID => false
  | _ => true

abbrev AuthBody (α : Type) := Prog AuthOp.Res AuthFailure α

abbrev await (op : AuthOp) : AuthBody op.Res := Prog.await op

/-! ## What the operations do -/

namespace AuthStore

variable (store : AuthStore)

def createUser (data : NewUser) : User × AuthStore :=
  let row : User := {
    id := store.nextId
    email := data.email
    passwordHash := data.passwordHash
    fullName := data.fullName
    role := data.role
    createdAt := store.clock }
  (row, { store with
    nextId := store.nextId + 1
    users := store.users ++ [row] })

def createRefreshToken (data : NewRefreshToken) : RefreshToken × AuthStore :=
  let row : RefreshToken := {
    id := store.nextId
    userId := data.userId
    tokenHash := data.tokenHash
    expiresAt := data.expiresAt
    createdAt := store.clock
    revokedAt := none }
  (row, { store with
    nextId := store.nextId + 1
    refreshTokens := store.refreshTokens ++ [row] })

def createAuditLog (data : NewAuditLog) : AuthStore :=
  { store with
    nextId := store.nextId + 1
    auditLogs := store.auditLogs ++ [{
      id := store.nextId
      actorId := data.actorId
      action := data.action
      entityType := data.entityType
      entityId := data.entityId
      metadataJson := data.metadataJson
      createdAt := store.clock }] }

/-- The hundred newest tokens of a user that are still valid. -/
def candidates (userId : Id) (now : Time) (includeRevoked : Bool) :
    List RefreshToken :=
  ((store.refreshTokens.filter fun row =>
    row.userId = userId && now < row.expiresAt &&
      (includeRevoked || row.revokedAt.isNone)).insertionSort
    fun left right => right.createdAt ≤ left.createdAt).take 100

end AuthStore

def recordNotFound : AuthFailure := .error "Record to update not found."

def uniqueViolation : AuthFailure := .error "Unique constraint failed"

def exec (env : AuthEnv) :
    (op : AuthOp) → AuthStore → Except AuthFailure (op.Res × AuthStore)
  | .now, store => .ok (store.clock, store)
  | .randomUUID, store =>
      .ok (store.nextId, { store with nextId := store.nextId + 1 })
  | .userFindUnique id, store =>
      .ok (Table.find User.id id store.users, store)
  | .userFindByEmail email, store =>
      .ok (Table.find User.email email store.users, store)
  | .userCreate data, store =>
      if store.users.any fun row => row.email = data.email then
        .error uniqueViolation
      else .ok (store.createUser data)
  | .refreshTokenCreate data, store => .ok (store.createRefreshToken data)
  | .refreshTokenFindUnique id, store =>
      .ok (Table.find RefreshToken.id id store.refreshTokens, store)
  | .refreshTokenFindMany userId now includeRevoked, store =>
      .ok (store.candidates userId now includeRevoked, store)
  | .refreshTokenUpdate id data, store =>
      match Table.find RefreshToken.id id store.refreshTokens with
      | none => .error recordNotFound
      | some row => .ok (data.apply row, { store with
          refreshTokens :=
            Table.modify RefreshToken.id id data.apply store.refreshTokens })
  | .auditLogCreate data, store => .ok ((), store.createAuditLog data)
  | .signAsync secret payload expiresIn, store =>
      .ok (env.jwt.sign secret payload (store.clock / 1000)
        (store.clock / 1000 + expiresIn), store)
  | .verifyAsync secret token, store =>
      match env.jwt.verify secret token (store.clock / 1000) with
      | some payload => .ok (payload, store)
      | none => .error (.error "invalid token")
  | .hash text, store =>
      .ok (env.bcrypt.hash text store.nextId,
        { store with nextId := store.nextId + 1 })
  | .compare text hash, store => .ok (env.bcrypt.compare text hash, store)

end SyncBridge.Auth
