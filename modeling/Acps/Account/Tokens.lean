import Acps.Account.VerificationCodes

/-!
The tokens of one user under local authentication: the requests that issue, exchange and revoke
them, as transactions on the row of the user.
-/

namespace Acps.Account.Tokens

open ReadCommitted

inductive TokenType where
  | access
  | refresh
  deriving DecidableEq

structure Token where
  jti : Nat
  type : Option TokenType
  exp : Time
  deriving DecidableEq

def Token.decodes (token : Token) (now : Time) : Bool := now < token.exp

structure User where
  email : Option String
  hashedPassword : Option String
  accessToken : Option Token
  refreshToken : Option Token
  tokenExpiresAt : Option Time
  isActive : Bool

structure Draw where
  access : Nat
  refresh : Nat

structure Issue where
  access : Token
  refresh : Token
  expiresAt : Time
  created : Nat
  deriving DecidableEq

def Issue.tokens (i : Issue) : List Token := [i.access, i.refresh]

structure Update where
  hashedPassword : Option String
  accessToken : Option (Option Token)
  refreshToken : Option (Option Token)
  tokenExpiresAt : Option (Option Time)
  isActive : Option Bool
  deriving DecidableEq

namespace Update

def empty : Update :=
  { hashedPassword := none, accessToken := none, refreshToken := none, tokenExpiresAt := none
    isActive := none }

def clear (loaded : User) : Update :=
  { empty with
    accessToken := loaded.accessToken.map fun _ => none
    refreshToken := loaded.refreshToken.map fun _ => none
    tokenExpiresAt := loaded.tokenExpiresAt.map fun _ => none }

def apply (u : Update) (user : User) : User :=
  { user with
    hashedPassword := u.hashedPassword.or user.hashedPassword
    accessToken := u.accessToken.getD user.accessToken
    refreshToken := u.refreshToken.getD user.refreshToken
    tokenExpiresAt := u.tokenExpiresAt.getD user.tokenExpiresAt
    isActive := u.isActive.getD user.isActive }

end Update

inductive Deed where
  | requested
  | loggedIn (issue : Issue)
  | refreshed (token : Token) (issue : Issue)
  | loggedOut
  | passwordChanged
  | deactivated
  deriving DecidableEq

structure Changes where
  deed : Deed
  /-- How many transactions had committed when it began. -/
  since : Nat
  update : Update

structure Tables where
  now : Time
  user : User
  committed : List Changes

def Tables.initial (user : User) : Tables :=
  { now := 0
    user := { user with accessToken := none, refreshToken := none, tokenExpiresAt := none }
    committed := [] }

structure Auth where
  verifyPassword : String → String → Bool × Bool
  accessTokenExpire : Time
  refreshTokenExpire : Time

abbrev Txn := Program Tables Changes

inductive Request where
  | authenticated (token : Option Token)
  | login (password : String) (draw : Draw)
  | loginPhone (codeAccepted : Bool) (draw : Draw)
  | refreshToken (token : Option Token) (draw : Draw)
  | logout (token : Option Token)
  | updateUserPassword (token : Option Token) (oldPassword newPassword : String)
  | updateUserPasswordByCode (codeAccepted : Bool) (password : String)
  | resetPassword (codeAccepted : Bool) (newPassword : String)
  | resetPasswordByMail (generated : String)
  | adminResetPassword (newPassword : String)
  | deleteUser

def User.holds (user : User) (token : Token) (now : Time) : Bool :=
  user.isActive ∧ user.accessToken = some token ∧ user.tokenExpiresAt.all (now ≤ ·)

def Token.isAccess (token : Token) : Bool := token.type = none ∨ token.type = some .access

section Service

variable (P : Platform) (A : Auth)

def createUserToken (draw : Draw) (t : Tables) : Issue :=
  { access := { jti := draw.access, type := some .access, exp := t.now + A.accessTokenExpire }
    refresh := { jti := draw.refresh, type := some .refresh, exp := t.now + A.refreshTokenExpire }
    expiresAt := t.now + A.accessTokenExpire
    created := t.committed.length }

def Update.issue (i : Issue) : Update :=
  { Update.empty with
    accessToken := some (some i.access)
    refreshToken := some (some i.refresh)
    tokenExpiresAt := some (some i.expiresAt) }

variable (began : Nat) (now : Time)

def finish (deed : Deed) (update : Update) : Txn := .commit { deed, since := began, update }

def currentUser (token : Option Token) (missing : Txn) (found : User → Txn) : Txn :=
  match token with
  | none => missing
  | some token =>
    if token.decodes now ∧ token.isAccess then
      .query fun t => if t.user.holds token t.now then found t.user else missing
    else missing

def authenticated (token : Option Token) : Txn :=
  currentUser now token .raise fun _ => finish began .requested .empty

def authenticateUser (password : String) (t : Tables) : Option (Option String) :=
  if t.user.isActive = false then none
  else match t.user.hashedPassword.filter (· ≠ "") with
    | none => none
    | some hashedPassword =>
      let (isValid, needsRehash) := A.verifyPassword password hashedPassword
      if isValid = false then none
      else some (if needsRehash then some (P.passwordHash password) else none)

def login (password : String) (draw : Draw) : Txn :=
  .query fun t =>
    match authenticateUser P A password t with
    | none => .raise
    | some hashedPassword =>
      let issue := createUserToken A draw t
      finish began (.loggedIn issue) { Update.issue issue with hashedPassword }

def loginPhone (codeAccepted : Bool) (draw : Draw) : Txn :=
  .query fun t =>
    if t.user.isActive = false then .raise
    else .query fun t =>
      if codeAccepted = false then .raise
      else
        let issue := createUserToken A draw t
        finish began (.loggedIn issue) (.issue issue)

def refreshAccessToken (token : Option Token) (draw : Draw) : Txn :=
  match token with
  | none => .raise
  | some token =>
    if token.decodes now ∧ token.type = some .refresh then
      .query fun t =>
        if t.user.isActive ∧ t.user.refreshToken = some token then
          let issue := createUserToken A draw t
          finish began (.refreshed token issue) (.issue issue)
        else .raise
    else .raise

def logout (token : Option Token) : Txn :=
  currentUser now token (finish began .requested .empty) fun user =>
    finish began .loggedOut (.clear user)

def setPassword (password : String) (update : Update) : Txn :=
  finish began .passwordChanged
    { update with hashedPassword := some (P.passwordHash password) }

def updateUserPassword (token : Option Token) (oldPassword newPassword : String) : Txn :=
  currentUser now token .raise fun user =>
    .query fun _ =>
      match user.hashedPassword with
      | none => .raise
      | some hashedPassword =>
        if (A.verifyPassword oldPassword hashedPassword).1 = false then .raise
        else if validatePasswordComplexity P newPassword = false then .raise
        else setPassword P began newPassword .empty

def updateUserPasswordByCode (codeAccepted : Bool) (password : String) : Txn :=
  .query fun _ =>
    if codeAccepted = false then .raise
    else .query fun _ =>
      if validatePasswordComplexity P password = false then .raise
      else setPassword P began password .empty

def resetPassword (codeAccepted : Bool) (newPassword : String) : Txn :=
  .query fun _ =>
    .query fun _ =>
      if codeAccepted = false then .raise
      else setPassword P began newPassword .empty

def resetPasswordByMail (generated : String) : Txn :=
  .query fun t =>
    if (t.user.email.filter (· ≠ "")).isNone then .raise
    else setPassword P began generated .empty

def adminResetPassword (newPassword : String) : Txn :=
  .query fun t =>
    if validatePasswordComplexity P newPassword = false then .raise
    else setPassword P began newPassword (.clear t.user)

def deleteUser : Txn :=
  .query fun _ => finish began .deactivated { Update.empty with isActive := some false }

def Request.run : Request → Txn
  | .authenticated token => Tokens.authenticated began now token
  | .login password draw => Tokens.login P A began password draw
  | .loginPhone codeAccepted draw => Tokens.loginPhone A began codeAccepted draw
  | .refreshToken token draw => refreshAccessToken A began now token draw
  | .logout token => Tokens.logout began now token
  | .updateUserPassword token oldPassword newPassword =>
    Tokens.updateUserPassword P A began now token oldPassword newPassword
  | .updateUserPasswordByCode codeAccepted password =>
    Tokens.updateUserPasswordByCode P began codeAccepted password
  | .resetPassword codeAccepted newPassword => Tokens.resetPassword P began codeAccepted newPassword
  | .resetPasswordByMail generated => Tokens.resetPasswordByMail P began generated
  | .adminResetPassword newPassword => Tokens.adminResetPassword P began newPassword
  | .deleteUser => Tokens.deleteUser began

def service : Service Request Tables Changes where
  program request t := request.run P A t.committed.length t.now
  apply c t := some { t with user := c.update.apply t.user, committed := t.committed ++ [c] }
  tick t := { t with now := t.now + 1 }

def requests : Transition.System (State Nat Tables Changes) (Action Nat Request) :=
  system (service P A)

end Service

def Tables.acceptsAccess (t : Tables) (token : Token) : Bool :=
  token.decodes t.now ∧ token.isAccess ∧ t.user.holds token t.now

def Tables.acceptsRefresh (t : Tables) (token : Token) : Bool :=
  token.decodes t.now ∧ token.type = some .refresh ∧ t.user.isActive ∧
    t.user.refreshToken = some token

def Changes.issue (c : Changes) : Option Issue :=
  match c.deed with
  | .loggedIn issue | .refreshed _ issue => some issue
  | .requested | .loggedOut | .passwordChanged | .deactivated => none

def Changes.exchanged (c : Changes) : Option Token :=
  match c.deed with
  | .refreshed token _ => some token
  | .requested | .loggedIn _ | .loggedOut | .passwordChanged | .deactivated => none

def Deed.ends (d : Deed) : Prop := d = .loggedOut ∨ d = .passwordChanged ∨ d = .deactivated

instance (d : Deed) : Decidable d.ends := inferInstanceAs (Decidable (_ ∨ _ ∨ _))

def issues (committed : List Changes) : List Issue := committed.filterMap Changes.issue

def tokens (committed : List Changes) : List Token := (issues committed).flatMap Issue.tokens

structure Tables.Mortal (t : Tables) : Prop where
  once : (t.committed.filterMap Changes.exchanged).Nodup
  newest : ∀ token, t.acceptsAccess token = true →
    ∃ i, (issues t.committed).getLast? = some i ∧ i.access = token
  ended : ∀ (j : Nat) (e : Changes), t.committed[j]? = some e → e.deed.ends →
    ∀ i ∈ issues t.committed, i.created ≤ j → ∀ token ∈ i.tokens,
      t.acceptsAccess token = false ∧ t.acceptsRefresh token = false ∧
        ∀ d ∈ t.committed.drop (j + 1), d.exchanged ≠ some token

end Acps.Account.Tokens
