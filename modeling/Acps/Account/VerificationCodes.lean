import Acps.Lib.LikePattern
import Acps.Lib.ReadCommitted
import Mathlib.Data.List.MinMax

/-!
Verification codes by phone and by email and the requests that present them, as transactions with
local authentication and no bypass code configured.
-/

namespace Acps.Account

open ReadCommitted LikePattern

abbrev Time := Nat

abbrev Code := List Char

inductive Contact where
  | phone (phone : String)
  | email (email : String)
  deriving DecidableEq

structure Issue where
  number : Nat
  contact : Contact
  code : Code
  expiresAt : Time
  deriving DecidableEq

structure Draw (charset : List Char) (n : Nat) where
  code : Code
  length_eq : code.length = n
  mem_charset : ∀ c ∈ code, c ∈ charset

def digits : List Char := "0123456789".toList

def uppercaseAndDigits : List Char := "ABCDEFGHIJKLMNOPQRSTUVWXYZ0123456789".toList

structure EmailStr where
  val : String
  nonempty : val ≠ ""

structure VerificationCode where
  id : Nat
  phone : String
  code : Code
  expiresAt : Time
  number : Nat

structure EmailCode where
  id : Nat
  email : String
  code : Code
  createdAt : Time
  expiresAt : Time
  usedAt : Option Time

structure User where
  id : Nat
  username : Option String
  email : Option String
  phone : Option String
  hashedPassword : Option String
  isActive : Bool

def VerificationCode.issue (r : VerificationCode) : Issue :=
  { number := r.number, contact := .phone r.phone, code := r.code, expiresAt := r.expiresAt }

def EmailCode.issue (r : EmailCode) : Issue :=
  { number := r.id, contact := .email r.email, code := r.code, expiresAt := r.expiresAt }

structure RegisterRequest where
  username : Option String
  password : Option String
  phone : Option String
  verifyCode : Option Code
  email : Option EmailStr

structure UserUpdate where
  phone : Option String
  email : Option EmailStr
  emailCode : Option Code

inductive Request where
  | sendVerificationCode (phone : String) (draw : Draw digits 6)
  | sendCode (email : String) (draw : Draw uppercaseAndDigits 4)
  | registerUser (payload : RegisterRequest)
  | authenticateByPhone (phone : String) (code : Code)
  | resetPassword (phone : String) (code : Code) (newPassword : String)
  | updateUser (userId : Nat) (userData : UserUpdate)
  | updateUserPasswordByCode (email : String) (code : Code) (password : String)
  | updateUserPhone (userId : Nat) (newPhone : String) (code : Code)

def Request.code : Request → Option Code
  | .sendVerificationCode _ _ | .sendCode _ _ => none
  | .registerUser payload => payload.verifyCode
  | .authenticateByPhone _ code | .resetPassword _ code _ => some code
  | .updateUser _ userData => userData.emailCode
  | .updateUserPasswordByCode _ code _ | .updateUserPhone _ _ code => some code

def Request.isProfileUpdate : Request → Bool
  | .updateUser _ _ => true
  | _ => false

inductive Write where
  | deleteExpired (now : Time)
  | insertVerificationCode (phone : String) (code : Code) (expiresAt : Time)
  | renewVerificationCode (id : Nat) (code : Code) (expiresAt : Time)
  | deleteVerificationCode (id : Nat)
  | insertEmailCode (email : String) (code : Code) (createdAt expiresAt : Time)
  | useEmailCode (id : Nat) (usedAt : Time)
  | insertUser (username email phone hashedPassword : Option String)
  | setEmail (userId : Nat) (email : String)
  | setPhone (userId : Nat) (phone : String)
  | setPassword (userId : Nat) (hashedPassword : String)

structure Accepted where
  issue : Issue
  row : Nat
  time : Time

structure Changes where
  request : Request
  /-- How many transactions had committed when it began. -/
  since : Nat
  accepted : Option Accepted
  writes : List Write

structure Tables where
  now : Time
  verificationCodes : List VerificationCode
  emailCodes : List EmailCode
  users : List User
  issued : List Issue
  committed : List Changes

def Tables.initial (users : List User) : Tables :=
  { now := 0, verificationCodes := [], emailCodes := [], users, issued := [], committed := [] }

structure Platform where
  lower : Code → Code
  sqlLower : Code → Code
  isDecimal : Char → Bool
  isSpace : Char → Bool
  passwordHash : String → String
  haveConfig : Bool
  /-- No letter has the other case of a character that is special in a pattern. -/
  plain_lower : ∀ code, Plain (lower code) ↔ Plain code
  plain_sqlLower : ∀ code, Plain (sqlLower code) ↔ Plain code

abbrev Txn := Program Tables Changes

abbrev Finish := Option Accepted → List Write → Txn

namespace Tables

def getUser (t : Tables) (userId : Nat) : Option User := t.users.find? fun u => u.id = userId

def getUserByPhone (t : Tables) (phone : String) : Option User :=
  t.users.find? fun u => u.phone = some phone

def getUserByUsername (t : Tables) (username : String) : Option User :=
  t.users.find? fun u => u.username = some username

def getVerificationCodeByPhone (t : Tables) (phone : String) : Option VerificationCode :=
  t.verificationCodes.find? fun r => r.phone = phone

def freshUserId (t : Tables) : Nat := (t.users.map User.id).foldr max 0 + 1

def latestEmailCode (t : Tables) (email : String) (currentTime : Time) (p : Code → Bool) :
    Option EmailCode :=
  (t.emailCodes.filter fun r =>
    r.email = email ∧ currentTime < r.expiresAt ∧ p r.code ∧ r.usedAt = none).argmax
      EmailCode.createdAt

end Tables

section Service

variable (P : Platform)

def Platform.ilike (pattern code : Code) : Bool := like (P.sqlLower pattern) (P.sqlLower code)

def storeVerificationCode (phone : String) (code : Code) (finish : Finish) : Txn :=
  .query fun t =>
    let now := t.now
    let expiresAt := now + 300
    .query fun t =>
      -- the select follows the delete of the same transaction
      match (t.verificationCodes.filter fun r => now < r.expiresAt).find? fun r => r.phone = phone with
      | none => finish none [.deleteExpired now, .insertVerificationCode phone code expiresAt]
      | some row => finish none [.deleteExpired now, .renewVerificationCode row.id code expiresAt]

def verifyCode (phone : String) (code : Code) (passed : Accepted → Txn) : Txn :=
  .query fun t =>
    match t.getVerificationCodeByPhone phone with
    | none => .raise
    | some row => .query fun t =>
      if row.expiresAt < t.now then .raise
      else if row.code ≠ code then .raise
      else passed { issue := row.issue, row := row.id, time := t.now }

def sendVerificationCode (phone : String) (draw : Draw digits 6) (finish : Finish) : Txn :=
  storeVerificationCode phone draw.code finish

def sendCode (email : String) (draw : Draw uppercaseAndDigits 4) (finish : Finish) : Txn :=
  if P.haveConfig = false then .raise
  else if email = "" then .raise
  else .query fun t => finish none [.insertEmailCode email draw.code t.now (t.now + 300)]

def given (s : Option String) : Option String := s.filter (· ≠ "")

def givenCode (code : Option Code) : Option Code := code.filter (· ≠ [])

def RegisterRequest.user (payload : RegisterRequest) : Write :=
  .insertUser payload.username (payload.email.map EmailStr.val) payload.phone
    ((given payload.password).map P.passwordHash)

def checkUsername (username : String) (free : Txn) : Txn :=
  .query fun t =>
    match t.getUserByUsername username with
    | some _ => .raise
    | none => free

def registerUser (payload : RegisterRequest) (finish : Finish) : Txn :=
  match given payload.phone, givenCode payload.verifyCode with
  | some phone, some code => .query fun t =>
    match t.getUserByPhone phone with
    | some _ => .raise
    | none => verifyCode phone code fun accepted =>
      let create := finish (some accepted)
        [.deleteVerificationCode accepted.row, payload.user P]
      match given payload.username with
      | some username => checkUsername username create
      | none => create
  | _, _ =>
    match given payload.username, given payload.password with
    | some username, some _ => checkUsername username (finish none [payload.user P])
    | _, _ => .raise

def authenticateByPhone (phone : String) (code : Code) (finish : Finish) : Txn :=
  .query fun t =>
    match t.getUserByPhone phone with
    | none => .raise
    | some user =>
      if user.isActive = false then .raise
      else verifyCode phone code fun accepted =>
        finish (some accepted) [.deleteVerificationCode accepted.row]

def resetPassword (phone : String) (code : Code) (newPassword : String) (finish : Finish) : Txn :=
  .query fun t =>
    match t.getUserByPhone phone with
    | none => .raise
    | some user => verifyCode phone code fun accepted =>
      finish (some accepted)
        [.deleteVerificationCode accepted.row, .setPassword user.id (P.passwordHash newPassword)]

def UserUpdate.writes (userData : UserUpdate) (user : User) : List Write :=
  ((userData.phone.filter fun p => user.phone ≠ some p).map (Write.setPhone user.id)).toList ++
  (((userData.email.map EmailStr.val).filter fun e => user.email ≠ some e).map
    (Write.setEmail user.id)).toList

def updateUser (userId : Nat) (userData : UserUpdate) (finish : Finish) : Txn :=
  .query fun t =>
    match t.getUser userId with
    | none => .raise
    | some user =>
      match (userData.email.map EmailStr.val).filter fun e => user.email ≠ some e with
      | none => finish none (userData.writes user)
      | some email =>
        match givenCode userData.emailCode with
        | none => .raise
        | some code => .query fun t =>
          let currentTime := t.now
          .query fun t =>
            match t.latestEmailCode email currentTime fun c => P.sqlLower c = P.lower code with
            | none => .raise
            | some latestCode =>
              finish (some { issue := latestCode.issue, row := latestCode.id, time := currentTime })
                (userData.writes user)

def upperLetters : List Char := "ABCDEFGHIJKLMNOPQRSTUVWXYZ".toList

def lowerLetters : List Char := "abcdefghijklmnopqrstuvwxyz".toList

def validatePasswordComplexity (password : String) : Bool :=
  let password := password.toList
  8 ≤ password.length ∧ password.length ≤ 20 ∧ password.any (upperLetters.contains ·) ∧
    password.any (lowerLetters.contains ·) ∧ password.any P.isDecimal ∧
    password.any fun c =>
      ¬ (upperLetters.contains c ∨ lowerLetters.contains c ∨ digits.contains c ∨ P.isSpace c)

def updateUserPasswordByCode (email : String) (code : Code) (password : String)
    (finish : Finish) : Txn :=
  .query fun t =>
    let currentTime := t.now
    .query fun t =>
      match t.latestEmailCode email currentTime (P.ilike code) with
      | none => .raise
      | some latestCode => .query fun t =>
        match (t.users.filter fun u => u.email = some email).take 2 with
        | [user] =>
          if validatePasswordComplexity P password = false then .raise
          else finish (some { issue := latestCode.issue, row := latestCode.id, time := currentTime })
            [.setPassword user.id (P.passwordHash password), .useEmailCode latestCode.id currentTime]
        | _ => .raise

def updateUserPhone (userId : Nat) (newPhone : String) (code : Code) (finish : Finish) : Txn :=
  .query fun t =>
    match t.getUser userId with
    | none => .raise
    | some user => .query fun t =>
      match t.getUserByPhone newPhone with
      | some _ => .raise
      | none => verifyCode newPhone code fun accepted =>
        finish (some accepted)
          (.deleteVerificationCode accepted.row ::
            if user.phone = some newPhone then [] else [.setPhone user.id newPhone])

def Request.run (finish : Finish) : Request → Txn
  | .sendVerificationCode phone draw => Account.sendVerificationCode phone draw finish
  | .sendCode email draw => Account.sendCode P email draw finish
  | .registerUser payload => Account.registerUser P payload finish
  | .authenticateByPhone phone code => Account.authenticateByPhone phone code finish
  | .resetPassword phone code newPassword => Account.resetPassword P phone code newPassword finish
  | .updateUser userId userData => Account.updateUser P userId userData finish
  | .updateUserPasswordByCode email code password =>
    Account.updateUserPasswordByCode P email code password finish
  | .updateUserPhone userId newPhone code => Account.updateUserPhone userId newPhone code finish

end Service

namespace Write

def issue (contact : Contact) (code : Code) (expiresAt : Time) (t : Tables) : Issue :=
  { number := t.issued.length, contact, code, expiresAt }

def updateRow (t : Tables) (userId : Nat) (taken : User → Bool) (f : User → User) : Option Tables :=
  if t.users.any (fun u => u.id ≠ userId ∧ taken u) then none
  else some { t with users := t.users.map fun u => if u.id = userId then f u else u }

def apply (t : Tables) : Write → Option Tables
  | .deleteExpired now =>
    some { t with verificationCodes := t.verificationCodes.filter fun r => now < r.expiresAt }
  | .insertVerificationCode phone code expiresAt =>
    if 20 < phone.length then none
    else if t.verificationCodes.any (fun r => r.phone = phone) then none
    else some { t with
      verificationCodes :=
        { id := t.issued.length, phone, code, expiresAt, number := t.issued.length } ::
          t.verificationCodes
      issued := t.issued ++ [issue (.phone phone) code expiresAt t] }
  | .renewVerificationCode id code expiresAt =>
    match t.verificationCodes.find? fun r => r.id = id with
    | none => none
    | some row => some { t with
      verificationCodes := t.verificationCodes.map fun r =>
        if r.id = id then { r with code, expiresAt, number := t.issued.length } else r
      issued := t.issued ++ [issue (.phone row.phone) code expiresAt t] }
  | .deleteVerificationCode id =>
    some { t with verificationCodes := t.verificationCodes.filter fun r => r.id ≠ id }
  | .insertEmailCode email code createdAt expiresAt =>
    if 255 < email.length then none
    else some { t with
      emailCodes :=
        { id := t.issued.length, email, code, createdAt, expiresAt, usedAt := none } ::
          t.emailCodes
      issued := t.issued ++ [issue (.email email) code expiresAt t] }
  | .useEmailCode id usedAt =>
    some { t with
      emailCodes := t.emailCodes.map fun r =>
        if r.id = id then { r with usedAt := some usedAt } else r }
  | .insertUser username email phone hashedPassword =>
    if t.users.any (fun u => (username.isSome ∧ u.username = username) ∨
        (email.isSome ∧ u.email = email) ∨ (phone.isSome ∧ u.phone = phone)) then none
    else some { t with
      users :=
        { id := t.freshUserId, username, email, phone, hashedPassword, isActive := true } ::
          t.users }
  | .setEmail userId email =>
    updateRow t userId (fun u => u.email = some email) fun u => { u with email := some email }
  | .setPhone userId phone =>
    updateRow t userId (fun u => u.phone = some phone) fun u => { u with phone := some phone }
  | .setPassword userId hashedPassword =>
    updateRow t userId (fun _ => false) fun u => { u with hashedPassword := some hashedPassword }

end Write

def Changes.apply (c : Changes) (t : Tables) : Option Tables :=
  (c.writes.foldlM Write.apply t).map fun u => { u with committed := u.committed ++ [c] }

def Request.finish (request : Request) (since : Nat) : Finish :=
  fun accepted writes => .commit { request, since, accepted, writes }

def service (P : Platform) : Service Request Tables Changes where
  program request t := request.run P (request.finish t.committed.length)
  apply := Changes.apply
  tick t := { t with now := t.now + 1 }

def requests (P : Platform) : Transition.System (State Nat Tables Changes) (Action Nat Request) :=
  system (service P)

end Acps.Account
