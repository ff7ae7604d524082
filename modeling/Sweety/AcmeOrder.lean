import Mathlib.Tactic.Common

namespace Sweety.AcmeOrder

/-!
# Orders for certificates

What `request_acme_cert` and `request_acme_cert_dns01` (`server/acme.rs`) have in
common: how an order is opened, how an authorization is looked at, and how the
certificate is fetched in the end.  What the server answers is given; the future
may be dropped wherever an answer is awaited.
-/

/-- `AuthorizationStatus`. -/
inductive AuthorizationStatus where
  | pending
  | valid
  | invalid
  | revoked
  | expired
  | deactivated
  deriving Repr, DecidableEq

/-- `OrderStatus`. -/
inductive OrderStatus where
  | pending
  | ready
  | processing
  | valid
  | invalid
  deriving Repr, DecidableEq

/-- How `Debug` writes the status of an authorization. -/
def AuthorizationStatus.debug : AuthorizationStatus → String
  | .pending => "Pending"
  | .valid => "Valid"
  | .invalid => "Invalid"
  | .revoked => "Revoked"
  | .expired => "Expired"
  | .deactivated => "Deactivated"

/-- How `Debug` writes the status of an order. -/
def OrderStatus.debug : OrderStatus → String
  | .pending => "Pending"
  | .ready => "Ready"
  | .processing => "Processing"
  | .valid => "Valid"
  | .invalid => "Invalid"

/-- What is awaited: an answer or an error, unless the future is dropped. -/
abbrev Reply (Value : Type) :=
  Option (Except String Value)

/-- How a request for a certificate ends. -/
inductive Exit where
  | ok (certificate key : String)
  /-- The error with what caused it, the outermost context first. -/
  | failed (chain : List String)
  | dropped
  deriving Repr, DecidableEq

/-- `.await.context(..)?`. -/
def awaited {Value : Type} (context : List String) :
    Reply Value → Except Exit Value
  | none =>
      .error .dropped
  | some (.error error) =>
      .error (.failed (context ++ [error]))
  | some (.ok value) =>
      .ok value

/-- From the first check to `new_order`. -/
def openOrder (domains : List String) (account order : Reply Unit) :
    Except Exit Unit :=
  if domains = [] then
    .error (.failed ["域名列表为空"])
  else
    (awaited [] account).bind fun _ => awaited ["创建 ACME 订单失败"] order

/-- `domains.join(", ")`. -/
def display (domains : List String) : String :=
  ", ".intercalate domains

/-- What is read of an authorization, with the challenge of the kind used. -/
structure Authorization where
  status : AuthorizationStatus
  identifier : String
  challenge : Option String
  deriving Repr, DecidableEq

/-- What the loop over the authorizations makes of one. -/
inductive Examined where
  | skipped
  | challenge (identifier value : String)
  | left (exit : Exit)
  deriving Repr, DecidableEq

/-- The first part of the loop body, for a kind of challenge. -/
def examine (kind : String) (domains : List String) :
    Except String Authorization → Examined
  | .error error =>
      .left (.failed ["获取 ACME 授权失败", error])
  | .ok authorization =>
      match authorization.status with
      | .valid =>
          .skipped
      | .pending =>
          match authorization.challenge with
          | none =>
              .left (.failed ["域名 " ++ authorization.identifier ++ " 没有 " ++
                kind ++ " challenge"])
          | some value =>
              .challenge authorization.identifier value
      | other =>
          .left (.failed ["ACME 授权状态异常: " ++ other.debug ++ "，域名: " ++
            display domains])

/-- `finalize` and `poll_certificate`. -/
def issue (name : String) (finalize certificate : Reply String) : Exit :=
  match awaited [name ++ " 提交 CSR / 签发失败"] finalize with
  | .error exit =>
      exit
  | .ok key =>
      match awaited [name ++ " 获取签发证书失败"] certificate with
      | .error exit =>
          exit
      | .ok certificate =>
          .ok certificate key

/-- The order is opened. -/
structure Opens (domains : List String) (account order : Reply Unit) :
    Prop where
  nonempty : domains ≠ []
  account : account = some (.ok ())
  order : order = some (.ok ())

/-- An exit without a certificate. -/
def Exit.Fails (exit : Exit) : Prop :=
  ∀ certificate key, exit ≠ .ok certificate key

section Replies

variable
  {Value : Type}
  {reply : Reply Value}
  {domains : List String}
  {account order : Reply Unit}

theorem awaited_eq_ok_iff
    {context : List String}
    {value : Value} :
    awaited context reply = .ok value ↔ reply = some (.ok value) := by
  match reply with
  | none =>
      simp [awaited]
  | some (.error error) =>
      simp [awaited]
  | some (.ok found) =>
      simp [awaited]

theorem fails_of_awaited
    {context : List String}
    {exit : Exit}
    (isLeft : awaited context reply = .error exit) :
    exit.Fails := by
  intro certificate key isOk
  rw [isOk] at isLeft
  match reply with
  | none =>
      simp [awaited] at isLeft
  | some (.error error) =>
      simp [awaited] at isLeft
  | some (.ok found) =>
      simp [awaited] at isLeft

theorem openOrder_ok (opens : Opens domains account order) :
    openOrder domains account order = .ok () := by
  obtain ⟨nonempty, rfl, rfl⟩ := opens
  rw [openOrder, if_neg nonempty]
  rfl

/-- An order that is not opened leaves the function. -/
theorem openOrder_error (notOpens : ¬Opens domains account order) :
    ∃ exit, openOrder domains account order = .error exit ∧ exit.Fails := by
  unfold openOrder
  split
  · exact ⟨_, rfl, fun certificate key isOk => nomatch isOk⟩
  · rename_i nonempty
    cases isAccount : awaited [] account with
    | error exit =>
        exact ⟨exit, rfl, fails_of_awaited isAccount⟩
    | ok value =>
        cases isOrder : awaited ["创建 ACME 订单失败"] order with
        | error exit =>
            exact ⟨exit, rfl, fails_of_awaited isOrder⟩
        | ok other =>
            exact absurd ⟨nonempty, awaited_eq_ok_iff.mp isAccount,
              awaited_eq_ok_iff.mp isOrder⟩ notOpens

end Replies

end Sweety.AcmeOrder
