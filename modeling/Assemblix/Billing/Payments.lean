import Assemblix.Billing.Credits
import Mathlib.Tactic.NormNum

/-
Payments and the webhooks of the payment provider.

A webhook is verified, mapped to a payment status and written to the payment row. The
balance is credited when the row turns to confirmed from any other status.
-/

namespace Assemblix.Billing

inductive PaymentStatus
  | init
  | new
  | formShowed
  | authorized
  | confirmed
  | rejected
  | refunded
  | canceled
  deriving DecidableEq, Repr

def PaymentStatus.ofValue : String → Option PaymentStatus
  | "init" => some .init
  | "new" => some .new
  | "form_showed" => some .formShowed
  | "authorized" => some .authorized
  | "confirmed" => some .confirmed
  | "rejected" => some .rejected
  | "refunded" => some .refunded
  | "canceled" => some .canceled
  | _ => none

inductive PaymentKind
  | subscription
  | creditPack
  deriving DecidableEq, Repr

/-- The keys of the payment's `meta` that are read again. -/
structure PaymentMeta where
  packCode : Option String
  credits : Option ℚ
  deriving DecidableEq

structure Payment where
  externalPaymentId : Option String
  status : PaymentStatus
  kind : PaymentKind
  targetPlan : Option PlanTier
  metadata : PaymentMeta
  deriving DecidableEq

/-- The payment row that a credit pack starts with, once the provider has opened transaction
`externalPaymentId`. -/
def createCreditPackPayment (pack : CreditPack) (externalPaymentId : String) : Payment :=
  { externalPaymentId := some externalPaymentId
    status := .init
    kind := .creditPack
    targetPlan := none
    metadata := { packCode := some pack.code, credits := some pack.credits } }

/-! ### Webhook payloads -/

inductive Field (α : Type)
  | absent
  | null
  | value (content : α)
  deriving DecidableEq, Repr

/-- `dict.get(key, default)`; `none` stands for Python's `None`. -/
def Field.get {α : Type} (field : Field α) (default : α) : Option α :=
  match field with
  | .absent => some default
  | .null => none
  | .value content => some content

structure Totals where
  total : Field String
  deriving DecidableEq, Repr

structure Details where
  totals : Field Totals
  deriving DecidableEq, Repr

structure CustomData where
  orderId : Field String
  deriving DecidableEq, Repr

structure EventData where
  id : Field String
  subscriptionId : Field String
  customData : Field CustomData
  details : Field Details
  deriving DecidableEq, Repr

structure Notification where
  rawBody : String
  paddleSignature : String
  eventType : Field String
  data : Field EventData
  deriving DecidableEq, Repr

inductive NotificationError
  | invalidSignature
  | paymentIdNotFound
  | statusNotFound
  | paymentNotFound (externalPaymentId : String)
  | unparseableTargetPlan
  | missingCredits
  | nullObject
  deriving DecidableEq, Repr

/-! ### The Paddle provider -/

def splitOn (separator : Char) : List Char → List (List Char)
  | [] => [[]]
  | first :: rest =>
      if first = separator then [] :: splitOn separator rest
      else
        match splitOn separator rest with
        | [] => [[first]]
        | part :: parts => (first :: part) :: parts

/-- `part.partition("=")` without the separator. -/
def partitionEq (part : List Char) : List Char × List Char :=
  (part.takeWhile (fun char => char ≠ '='), (part.dropWhile (fun char => char ≠ '=')).drop 1)

def strip (text : List Char) : List Char :=
  ((text.dropWhile Char.isWhitespace).reverse.dropWhile Char.isWhitespace).reverse

def signaturePart (header key : String) : String :=
  let parts := (splitOn ';' header.toList).map partitionEq
  let named := parts.filter (fun part => part.1 ≠ [] ∧ part.2 ≠ [] ∧ strip part.1 = key.toList)
  String.ofList ((named.map (fun part => strip part.2)).getLastD [])

/-- `verify_notification`; `hexDigest` is HMAC-SHA256 in hexadecimal. -/
def verifyNotification (hexDigest : String → String → String) (webhookSecret : String)
    (payload : Notification) : Bool :=
  if payload.rawBody = "" ∨ payload.paddleSignature = "" then false
  else
    let ts := signaturePart payload.paddleSignature "ts"
    let h1 := signaturePart payload.paddleSignature "h1"
    if ts = "" ∨ h1 = "" then false
    else decide (hexDigest webhookSecret (ts ++ ":" ++ payload.rawBody) = h1)

def statusMap : String → String
  | "transaction.paid" => "confirmed"
  | "transaction.completed" => "confirmed"
  | "transaction.canceled" => "canceled"
  | "transaction.past_due" => "rejected"
  | "subscription.canceled" => "canceled"
  | _ => ""

structure ParsedNotification where
  paymentId : Option String
  status : String
  subscriptionId : Option String
  orderId : Option String
  amount : Option String
  success : Bool
  deriving DecidableEq, Repr

def Field.required {α : Type} (field : Field α) (default : α) : Except NotificationError α :=
  match field.get default with
  | some content => .ok content
  | none => .error .nullObject

def Field.toOption {α : Type} : Field α → Option α
  | .value content => some content
  | _ => none

/-- An event type outside the map counts as `init`. -/
def mappedStatus (eventType : Option String) : String :=
  let mapped := statusMap (eventType.getD "")
  if mapped = "" then "init" else mapped

def parseNotification (payload : Notification) : Except NotificationError ParsedNotification := do
  let eventType := payload.eventType.get ""
  let data ← payload.data.required
    { id := .absent, subscriptionId := .absent, customData := .absent, details := .absent }
  let customData := data.customData.get { orderId := .absent }
  let details ← data.details.required { totals := .absent }
  let totals := details.totals.toOption
  match customData with
  | none => .error .nullObject
  | some custom =>
      .ok
        { paymentId := data.id.get ""
          status := mappedStatus eventType
          subscriptionId := data.subscriptionId.toOption
          orderId := custom.orderId.get ""
          amount := totals.bind (fun present => present.total.toOption)
          success := decide (eventType = some "transaction.paid" ∨
            eventType = some "transaction.completed") }

/-! ### The payment service -/

structure Desk where
  payment : Payment
  account : Account
  deriving DecidableEq

structure PaymentService where
  hexDigest : String → String → String
  webhookSecret : String
  creditConfig : CreditConfig

def Payment.updateStatus (payment : Payment) (status : PaymentStatus) (externalPaymentId : String) :
    Payment :=
  { payment with status := status, externalPaymentId := some externalPaymentId }

def activateSubscription (service : PaymentService) (today : Date) (desk : Desk) :
    Except NotificationError Desk :=
  match desk.payment.targetPlan with
  | none => .error .unparseableTargetPlan
  | some plan =>
      let switched : Account :=
        { desk.account with organization := { desk.account.organization with plan := plan } }
      .ok { desk with account := switched.grant service.creditConfig today }

def creditPackPurchased (service : PaymentService) (desk : Desk) : Except NotificationError Desk :=
  match desk.payment.metadata.credits with
  | none => .error .missingCredits
  | some credits =>
      .ok
        { desk with
          account := desk.account.recordManualTopup service.creditConfig credits
            ("Credit pack purchase (" ++ upper (desk.payment.metadata.packCode.getD "?") ++ ")") }

/-- `process_notification`; the flag is the value it returns. -/
def processNotification (service : PaymentService) (today : Date) (desk : Desk)
    (payload : Notification) : Except NotificationError (Bool × Desk) :=
  if verifyNotification service.hexDigest service.webhookSecret payload = false then
    .error .invalidSignature
  else
    match parseNotification payload with
    | .error error => .error error
    | .ok parsed =>
        match parsed.paymentId with
        | none => .error .paymentIdNotFound
        | some paymentId =>
            if paymentId = "" then .error .paymentIdNotFound
            else if parsed.status = "" then .error .statusNotFound
            else if desk.payment.externalPaymentId ≠ some paymentId then
              .error (.paymentNotFound paymentId)
            else
              match PaymentStatus.ofValue (lower parsed.status) with
              | none => .ok (false, desk)
              | some newStatus =>
                  let wasConfirmed := decide (desk.payment.status = .confirmed)
                  let updated :=
                    { desk with payment := desk.payment.updateStatus newStatus paymentId }
                  if newStatus = .confirmed ∧ wasConfirmed = false then
                    match desk.payment.kind with
                    | .creditPack =>
                        (creditPackPurchased service updated).map (fun credited => (true, credited))
                    | .subscription =>
                        (activateSubscription service today updated).map
                          (fun activated => (true, activated))
                  else .ok (true, updated)

/-- One request to the webhook endpoint: the session is rolled back when the service raises. -/
def receive (service : PaymentService) (today : Date) (desk : Desk) (payload : Notification) :
    Desk :=
  match processNotification service today desk payload with
  | .ok (_, next) => next
  | .error _ => desk

/-- Webhooks one after another, each on the day it arrives. -/
def receiveAll (service : PaymentService) (desk : Desk) (payloads : List (Date × Notification)) :
    Desk :=
  payloads.foldl (fun current entry => receive service entry.1 current entry.2) desk

/-! ### What one webhook does -/

def writtenStatus (service : PaymentService) (externalPaymentId : String) (payload : Notification) :
    Option PaymentStatus :=
  if verifyNotification service.hexDigest service.webhookSecret payload = false then none
  else
    match parseNotification payload with
    | .error _ => none
    | .ok parsed =>
        if parsed.paymentId = some externalPaymentId then PaymentStatus.ofValue (lower parsed.status)
        else none

theorem mappedStatus_ne_empty (eventType : Option String) : mappedStatus eventType ≠ "" := by
  unfold mappedStatus
  by_cases empty : statusMap (eventType.getD "") = ""
  · simp [empty]
  · simp [empty]

theorem parseNotification_status {payload : Notification} {parsed : ParsedNotification}
    (parses : parseNotification payload = .ok parsed) : parsed.status ≠ "" := by
  simp only [parseNotification, Bind.bind, Except.bind] at parses
  split at parses
  · cases parses
  · split at parses
    · cases parses
    · split at parses
      · cases parses
      · have same := Except.ok.inj parses
        rw [← same]
        exact mappedStatus_ne_empty _

structure Payable (externalPaymentId packCode : String) (credits : ℚ) (payment : Payment) :
    Prop where
  identified : payment.externalPaymentId = some externalPaymentId
  kind : payment.kind = .creditPack
  metadata : payment.metadata = { packCode := some packCode, credits := some credits }

theorem receive_eq (service : PaymentService) (today : Date) (desk : Desk) (payload : Notification)
    {externalPaymentId packCode : String} {credits : ℚ}
    (payable : Payable externalPaymentId packCode credits desk.payment)
    (nonempty : externalPaymentId ≠ "") :
    receive service today desk payload =
      match writtenStatus service externalPaymentId payload with
      | none => desk
      | some status =>
          { payment := desk.payment.updateStatus status externalPaymentId
            account :=
              if status = .confirmed ∧ desk.payment.status ≠ .confirmed then
                desk.account.recordManualTopup service.creditConfig credits
                  ("Credit pack purchase (" ++ upper packCode ++ ")")
              else desk.account } := by
  unfold receive processNotification writtenStatus
  cases verified : verifyNotification service.hexDigest service.webhookSecret payload with
  | false => rfl
  | true =>
      cases parses : parseNotification payload with
      | error error => rfl
      | ok parsed =>
          have present := parseNotification_status parses
          simp only [Bool.true_eq_false, if_false, payable.identified]
          cases paid : parsed.paymentId with
          | none => simp
          | some paymentId =>
              by_cases same : paymentId = externalPaymentId
              · subst same
                simp only [if_neg nonempty, if_neg present, ne_eq, not_true_eq_false, if_false,
                  if_true]
                cases status : PaymentStatus.ofValue (lower parsed.status) with
                | none => rfl
                | some newStatus =>
                    by_cases turns : newStatus = .confirmed ∧ desk.payment.status ≠ .confirmed
                    · obtain ⟨confirmed, before⟩ := turns
                      simp [confirmed, before, payable.kind, creditPackPurchased,
                        Payment.updateStatus, payable.metadata, Except.map]
                    · have quiet : ¬ (newStatus = .confirmed ∧
                          decide (desk.payment.status = .confirmed) = false) := by
                        simpa using turns
                      simp only [if_neg quiet, if_neg turns]
              · have other : ¬ some externalPaymentId = some paymentId := by
                  intro equal
                  exact same (Option.some.inj equal).symm
                by_cases empty : paymentId = ""
                · simp [empty, Ne.symm nonempty]
                · simp [empty, present, other, same]

theorem receive_payable (service : PaymentService) (today : Date) (desk : Desk)
    (payload : Notification) {externalPaymentId packCode : String} {credits : ℚ}
    (payable : Payable externalPaymentId packCode credits desk.payment)
    (nonempty : externalPaymentId ≠ "") :
    Payable externalPaymentId packCode credits (receive service today desk payload).payment := by
  rw [receive_eq service today desk payload payable nonempty]
  cases writtenStatus service externalPaymentId payload with
  | none => exact payable
  | some status => exact ⟨rfl, payable.kind, payable.metadata⟩

/-! ### Sequences of webhooks -/

def confirmations : Bool → List PaymentStatus → Nat
  | _, [] => 0
  | wasConfirmed, status :: rest =>
      (if status = .confirmed ∧ wasConfirmed = false then 1 else 0) +
        confirmations (decide (status = .confirmed)) rest

def writtenStatuses (service : PaymentService) (externalPaymentId : String)
    (payloads : List (Date × Notification)) : List PaymentStatus :=
  payloads.filterMap (fun entry => writtenStatus service externalPaymentId entry.2)

theorem receiveAll_purchased (service : PaymentService) (payloads : List (Date × Notification))
    (desk : Desk) {externalPaymentId packCode : String} {credits : ℚ}
    (payable : Payable externalPaymentId packCode credits desk.payment)
    (nonempty : externalPaymentId ≠ "") :
    (receiveAll service desk payloads).account.organization.creditsPurchasedBalance =
      desk.account.organization.creditsPurchasedBalance +
        confirmations (decide (desk.payment.status = .confirmed))
          (writtenStatuses service externalPaymentId payloads) * credits := by
  induction payloads generalizing desk with
  | nil => simp [receiveAll, writtenStatuses, confirmations]
  | cons entry rest ih =>
      have later := ih (receive service entry.1 desk entry.2)
        (receive_payable service entry.1 desk entry.2 payable nonempty)
      rw [receiveAll, List.foldl_cons, ← receiveAll, later,
        receive_eq service entry.1 desk entry.2 payable nonempty]
      cases written : writtenStatus service externalPaymentId entry.2 with
      | none => simp [writtenStatuses, written]
      | some status =>
          have counted : confirmations (decide (desk.payment.status = .confirmed))
              (writtenStatuses service externalPaymentId (entry :: rest)) =
              (if status = .confirmed ∧ decide (desk.payment.status = .confirmed) = false then 1
                else 0) +
                confirmations (decide (status = .confirmed))
                  (writtenStatuses service externalPaymentId rest) := by
            simp only [writtenStatuses, List.filterMap_cons, written, confirmations]
          rw [counted]
          by_cases turns : status = .confirmed ∧ desk.payment.status ≠ .confirmed
          · obtain ⟨confirmed, before⟩ := turns
            simp only [confirmed, before, Payment.updateStatus, ne_eq, not_false_eq_true, and_self,
              if_true, decide_true, decide_false, Account.recordManualTopup_purchased]
            push_cast
            ring
          · have quiet : ¬ (status = .confirmed ∧
                decide (desk.payment.status = .confirmed) = false) := by
              simpa using turns
            simp only [if_neg turns, if_neg quiet, Payment.updateStatus, Nat.zero_add]
            rfl

def ConfirmedTogether (statuses : List PaymentStatus) : Prop :=
  ∀ before between after,
    statuses = before ++ .confirmed :: (between ++ .confirmed :: after) →
      ∀ status ∈ between, status = .confirmed

theorem confirmations_false_eq_zero (statuses : List PaymentStatus) :
    confirmations false statuses = 0 ↔ .confirmed ∉ statuses := by
  induction statuses with
  | nil => simp [confirmations]
  | cons status rest ih =>
      by_cases confirmed : status = .confirmed
      · simp [confirmations, confirmed]
      · have different : ¬ .confirmed = status := fun same => confirmed same.symm
        simp [confirmations, confirmed, different, ih]

theorem confirmations_true_eq_zero (statuses : List PaymentStatus) :
    confirmations true statuses = 0 ↔
      ∀ between after, statuses = between ++ .confirmed :: after →
        ∀ status ∈ between, status = .confirmed := by
  induction statuses with
  | nil => simp [confirmations]
  | cons status rest ih =>
      by_cases confirmed : status = .confirmed
      · subst confirmed
        simp only [confirmations, Bool.true_eq_false, and_false, if_false, decide_true,
          Nat.zero_add, ih]
        constructor
        · intro together between after split other member
          cases between with
          | nil => cases member
          | cons first between =>
              injection split with same rest
              rcases List.mem_cons.mp member with atFirst | later
              · rw [atFirst, ← same]
              · exact together between after rest other later
        · intro together between after split other member
          apply together (.confirmed :: between) after (by rw [split, List.cons_append]) other
          exact List.mem_cons_of_mem _ member
      · simp only [confirmations, confirmed, false_and, if_false, decide_false, Nat.zero_add,
          confirmations_false_eq_zero]
        constructor
        · intro absent between after split
          exfalso
          cases between with
          | nil =>
              injection split with same _
              exact confirmed same
          | cons first between =>
              injection split with _ rest
              apply absent
              rw [rest]
              exact List.mem_append_right _ List.mem_cons_self
        · intro together member
          obtain ⟨between, after, split⟩ := List.append_of_mem member
          apply confirmed
          apply together (status :: between) after (by rw [split, List.cons_append])
          exact List.mem_cons_self

theorem confirmations_eq_one_iff (statuses : List PaymentStatus) :
    confirmations false statuses = (if .confirmed ∈ statuses then 1 else 0) ↔
      ConfirmedTogether statuses := by
  induction statuses with
  | nil => simp [confirmations, ConfirmedTogether]
  | cons status rest ih =>
      by_cases confirmed : status = .confirmed
      · subst confirmed
        have first : confirmations false (.confirmed :: rest) = 1 + confirmations true rest := by
          simp [confirmations]
        rw [first, if_pos List.mem_cons_self]
        have tail : 1 + confirmations true rest = 1 ↔ confirmations true rest = 0 := by omega
        rw [tail, confirmations_true_eq_zero]
        constructor
        · intro together before between after split other member
          cases before with
          | nil =>
              injection split with _ rest
              exact together between after rest other member
          | cons first before =>
              injection split with _ rest
              apply together (before ++ .confirmed :: between) after _ other
              · exact List.mem_append_right _ (List.mem_cons_of_mem _ member)
              · rw [rest, List.append_assoc, List.cons_append]
                rfl
        · intro together between after split
          exact together [] between after (by rw [split, List.nil_append])
      · have different : ¬ .confirmed = status := fun same => confirmed same.symm
        simp only [confirmations, confirmed, false_and, if_false, decide_false, Nat.zero_add,
          List.mem_cons, different, false_or]
        rw [ih]
        constructor
        · intro together before between after split
          cases before with
          | nil =>
              injection split with same _
              exact absurd same confirmed
          | cons first before =>
              injection split with _ rest
              exact together before between after rest
        · intro together before between after split
          exact together (status :: before) between after (by rw [split, List.cons_append])

/-- A credit pack is credited once by a sequence of webhooks, or not at all when none confirms
it, exactly when no other status is written between two confirmed ones. -/
theorem creditPack_credited_once_iff (service : PaymentService) (account : Account) (code : String)
    (pack : CreditPack) (found : getCreditPack code = some pack) (externalPaymentId : String)
    (nonempty : externalPaymentId ≠ "") (payloads : List (Date × Notification)) :
    (receiveAll service ⟨createCreditPackPayment pack externalPaymentId, account⟩
        payloads).account.organization.creditsPurchasedBalance =
        account.organization.creditsPurchasedBalance +
          (if .confirmed ∈ writtenStatuses service externalPaymentId payloads then
            (pack.credits : ℚ) else 0) ↔
      ConfirmedTogether (writtenStatuses service externalPaymentId payloads) := by
  have payable : Payable externalPaymentId pack.code pack.credits
      (createCreditPackPayment pack externalPaymentId) := ⟨rfl, rfl, rfl⟩
  have positive : (pack.credits : ℚ) ≠ 0 := by
    have bound := getCreditPack_credits_pos found
    exact_mod_cast Nat.ne_of_gt bound
  rw [receiveAll_purchased service payloads ⟨createCreditPackPayment pack externalPaymentId, account⟩
    payable nonempty, ← confirmations_eq_one_iff]
  change account.organization.creditsPurchasedBalance +
    (confirmations false (writtenStatuses service externalPaymentId payloads) : ℚ) * pack.credits =
      _ ↔ _
  rw [add_right_inj]
  split
  · rw [mul_eq_right₀ positive]
    exact_mod_cast Iff.rfl
  · rw [mul_eq_zero, or_iff_left positive]
    exact_mod_cast Iff.rfl

/-! One purchase: paid, then an event the provider does not map, then completed. -/

def eventBody (eventType : String) : String :=
  "\x7b\"event_type\":\"" ++ eventType ++ "\",\"data\":\x7b\"id\":\"txn_1\"\x7d\x7d"

/-- HMAC-SHA256 under the secret `whsec` of the three bodies signed at time 1. -/
def purchaseDigest (_secret message : String) : String :=
  if message = "1:" ++ eventBody "transaction.paid" then
    "4c4c2424971c0c645b29cba42867832c6e7f8584d9287eb967eef675e44dad21"
  else if message = "1:" ++ eventBody "transaction.updated" then
    "bd85ce1016266cb21109cb855cbfee88984b6a4d5b5be3d59a460fc044230aeb"
  else if message = "1:" ++ eventBody "transaction.completed" then
    "ba15b65e7b1460caaf88691a518790d2097ac88f3db07c7f757f9556341d7979"
  else ""

def purchaseService : PaymentService where
  hexDigest := purchaseDigest
  webhookSecret := "whsec"
  creditConfig := { creditValueUsd := 1 / 10000 }

def purchaseEvent (eventType : String) : Date × Notification :=
  ({ year := 2025, month := 1, day := 1 },
    { rawBody := eventBody eventType
      paddleSignature := "ts=1;h1=" ++ purchaseDigest "whsec" ("1:" ++ eventBody eventType)
      eventType := .value eventType
      data := .value
        { id := .value "txn_1", subscriptionId := .absent, customData := .absent
          details := .absent } })

def purchaseAccount : Account where
  organization :=
    { plan := .free
      creditsGrantedBalance := 5000
      creditsPurchasedBalance := 0
      creditsPeriodStart := { year := 2025, month := 1, day := 1 } }
  transactions := []

theorem creditPack_credited_once_iff_purchase :
    (receiveAll purchaseService
        ⟨createCreditPackPayment ⟨"s", 1000, 25000⟩ "txn_1", purchaseAccount⟩
        [purchaseEvent "transaction.paid", purchaseEvent "transaction.completed"]
          ).account.organization.creditsPurchasedBalance =
        purchaseAccount.organization.creditsPurchasedBalance +
          (if .confirmed ∈ writtenStatuses purchaseService "txn_1"
              [purchaseEvent "transaction.paid", purchaseEvent "transaction.completed"] then
            ((25000 : Nat) : ℚ) else 0) ↔
      ConfirmedTogether (writtenStatuses purchaseService "txn_1"
        [purchaseEvent "transaction.paid", purchaseEvent "transaction.completed"]) :=
  creditPack_credited_once_iff purchaseService purchaseAccount "s" ⟨"s", 1000, 25000⟩ (by decide)
    "txn_1" (by decide) _

theorem purchase_verified : ∀ entry ∈ [purchaseEvent "transaction.paid",
    purchaseEvent "transaction.updated", purchaseEvent "transaction.completed"],
    verifyNotification purchaseService.hexDigest purchaseService.webhookSecret entry.2 = true := by
  decide +kernel

/-- The pack of 25000 credits is credited twice. -/
theorem creditPack_credited_twice :
    (∀ entry ∈ [purchaseEvent "transaction.paid", purchaseEvent "transaction.updated",
        purchaseEvent "transaction.completed"],
      verifyNotification purchaseService.hexDigest purchaseService.webhookSecret entry.2 = true) ∧
    (receiveAll purchaseService
        ⟨createCreditPackPayment ⟨"s", 1000, 25000⟩ "txn_1", purchaseAccount⟩
        [purchaseEvent "transaction.paid", purchaseEvent "transaction.updated",
          purchaseEvent "transaction.completed"]).account.organization.creditsPurchasedBalance ≠
      purchaseAccount.organization.creditsPurchasedBalance + 25000 := by
  refine ⟨purchase_verified, ?_⟩
  have payable : Payable "txn_1" "s" (25000 : Nat)
      (createCreditPackPayment ⟨"s", 1000, 25000⟩ "txn_1") := ⟨rfl, rfl, rfl⟩
  rw [receiveAll_purchased purchaseService _
    ⟨createCreditPackPayment ⟨"s", 1000, 25000⟩ "txn_1", purchaseAccount⟩ payable (by decide)]
  have twice : confirmations false (writtenStatuses purchaseService "txn_1"
      [purchaseEvent "transaction.paid", purchaseEvent "transaction.updated",
        purchaseEvent "transaction.completed"]) = 2 := by
    have verified := purchase_verified
    simp only [List.forall_mem_cons, List.not_mem_nil, false_imp_iff, implies_true,
      and_true] at verified
    obtain ⟨paid, updated, completed⟩ := verified
    simp only [writtenStatuses, List.filterMap_cons, List.filterMap_nil, writtenStatus, paid,
      updated, completed, Bool.true_eq_false, if_false]
    decide
  change _ + ((confirmations false _ : Nat) : ℚ) * _ ≠ _
  rw [twice]
  norm_num [purchaseAccount]

end Assemblix.Billing
