import Mathlib.Data.List.Infix

/-!
# The Telegram client

`TelegramClient.send`: one message, handed to the Bot up to `telegram_max_retries + 1` times.

- `BotAnswer`: how `Bot.send_message` ends;
- `settled?`, `exhausted`: the branches of the loop;
- `TelegramClient.send`: the answers that the Bot gave, and what the caller gets;
- `getLast?_of_ok`, `sendLoop_confirmed`: what the caller learns about the last answer.
-/

set_option autoImplicit false

namespace TalonX.Notify

/-- An exception carries its text; `TimedOut` is a `NetworkError`. -/
inductive BotAnswer
  | acknowledged
  | retryAfter (exc : String)
  | invalidToken (exc : String)
  | forbidden (exc : String)
  | networkError (exc : String)
  | telegramError (exc : String)
  deriving DecidableEq, Repr

namespace BotAnswer

/-- Telegram did not take the message. -/
def rejected : BotAnswer → Bool
  | acknowledged | networkError _ => false
  | retryAfter _ | invalidToken _ | forbidden _ | telegramError _ => true

/-- The message may have arrived. -/
def unconfirmed : BotAnswer → Bool
  | networkError _ => true
  | _ => false

def text : BotAnswer → String
  | acknowledged => ""
  | retryAfter exc | invalidToken exc | forbidden exc | networkError exc | telegramError exc => exc

end BotAnswer

structure TelegramSendError where
  text : String
  ambiguous : Bool
  deriving DecidableEq, Repr

/-- A branch that leaves the loop at once. -/
def settled? (retryAmbiguous : Bool) : BotAnswer → Option (Except TelegramSendError Unit)
  | .acknowledged => some (.ok ())
  | .invalidToken exc | .forbidden exc => some (.error ⟨"Telegram send failed (non-retryable): " ++ exc, false⟩)
  | .networkError exc =>
    if retryAmbiguous then none
    else some (.error ⟨"Telegram send outcome unconfirmed (NetworkError: " ++ exc ++ ")", true⟩)
  | .retryAfter _ | .telegramError _ => none

/-- The attempts are used up. -/
def exhausted (maxRetries : ℕ) (a : BotAnswer) : Except TelegramSendError Unit :=
  .error ⟨"Exhausted " ++ toString maxRetries ++ " retries: " ++ a.text, false⟩

structure TelegramClient where
  isConfigured : Bool
  maxRetries : ℕ
  deriving DecidableEq, Repr

structure Sending where
  answers : List BotAnswer
  result : Except TelegramSendError Unit

/-- The loop, with `left` retries left; the Bot gives its `n`-th answer next. -/
def sendLoop (maxRetries : ℕ) (retryAmbiguous : Bool) (bot : ℕ → BotAnswer) : ℕ → ℕ → Sending
  | 0, n => ⟨[bot n], (settled? retryAmbiguous (bot n)).getD (exhausted maxRetries (bot n))⟩
  | left + 1, n =>
    match settled? retryAmbiguous (bot n) with
    | some result => ⟨[bot n], result⟩
    | none =>
      let rest := sendLoop maxRetries retryAmbiguous bot left (n + 1)
      ⟨bot n :: rest.answers, rest.result⟩

def TelegramClient.send (client : TelegramClient) (retryAmbiguous : Bool) (bot : ℕ → BotAnswer) (n : ℕ) : Sending :=
  sendLoop client.maxRetries retryAmbiguous bot client.maxRetries n

/-! ## What the caller learns -/

section Loop

variable {maxRetries n left : ℕ} {retryAmbiguous : Bool} {bot : ℕ → BotAnswer}

theorem settled?_ok {a : BotAnswer} (h : settled? retryAmbiguous a = some (.ok ())) : a = .acknowledged := by
  cases a with
  | acknowledged => rfl
  | networkError exc => cases retryAmbiguous <;> simp [settled?] at h
  | _ => simp [settled?] at h

/-- The branches that try again, for an answer that is not unconfirmed. -/
theorem rejected_of_settled? {a : BotAnswer} (h : settled? retryAmbiguous a = none) (ha : a.unconfirmed = false) :
    a.rejected = true := by
  cases a with
  | acknowledged => cases h
  | networkError exc => cases ha
  | _ => rfl

theorem answers_ne_nil : (sendLoop maxRetries retryAmbiguous bot left n).answers ≠ [] := by
  cases left with
  | zero => simp [sendLoop]
  | succ left =>
    rw [sendLoop]
    split <;> simp

/-- A success means that the last answer was an acknowledgement. -/
theorem getLast?_of_ok (h : (sendLoop maxRetries retryAmbiguous bot left n).result = .ok ()) :
    (sendLoop maxRetries retryAmbiguous bot left n).answers.getLast? = some .acknowledged := by
  induction left generalizing n with
  | zero =>
    rw [sendLoop] at h ⊢
    cases hbot : settled? retryAmbiguous (bot n) with
    | none =>
      rw [hbot] at h
      cases h
    | some result =>
      rw [hbot] at h
      obtain rfl : result = .ok () := h
      rw [settled?_ok hbot]
      rfl
  | succ left ih =>
    rw [sendLoop] at h ⊢
    cases hbot : settled? retryAmbiguous (bot n) with
    | none =>
      rw [hbot] at h
      dsimp only
      rw [List.getLast?_cons_of_ne_nil answers_ne_nil]
      exact ih h
    | some result =>
      rw [hbot] at h
      obtain rfl : result = .ok () := h
      rw [settled?_ok hbot]
      rfl

/-- Without an unconfirmed answer, the Bot gets the message again only after a rejection, and the caller learns of an
acknowledgement. -/
theorem sendLoop_confirmed (h : ∀ a ∈ (sendLoop maxRetries retryAmbiguous bot left n).answers, a.unconfirmed = false) :
    (∀ a ∈ (sendLoop maxRetries retryAmbiguous bot left n).answers.dropLast, a.rejected = true) ∧
      ∀ a ∈ (sendLoop maxRetries retryAmbiguous bot left n).answers.getLast?, a.rejected = false →
        (sendLoop maxRetries retryAmbiguous bot left n).result = .ok () := by
  induction left generalizing n with
  | zero =>
    rw [sendLoop] at h ⊢
    refine ⟨by simp, fun a ha hrejected => ?_⟩
    obtain rfl : bot n = a := by simpa using ha
    have hconfirmed : (bot n).unconfirmed = false := h (bot n) (by simp)
    cases hbot : bot n <;> simp_all [settled?, BotAnswer.rejected, BotAnswer.unconfirmed]
  | succ left ih =>
    rw [sendLoop] at h ⊢
    cases hbot : settled? retryAmbiguous (bot n) with
    | some result =>
      rw [hbot] at h
      refine ⟨by simp, fun a ha hrejected => ?_⟩
      obtain rfl : bot n = a := by simpa using ha
      have hconfirmed : (bot n).unconfirmed = false := h (bot n) (by simp)
      cases hanswer : bot n <;> simp_all [settled?, BotAnswer.rejected, BotAnswer.unconfirmed]
    | none =>
      rw [hbot] at h
      obtain ⟨hfirst, hrest⟩ := List.forall_mem_cons.1 h
      obtain ⟨hdrop, hlast⟩ := ih hrest
      dsimp only
      rw [List.dropLast_cons_of_ne_nil answers_ne_nil, List.getLast?_cons_of_ne_nil answers_ne_nil]
      exact ⟨List.forall_mem_cons.2 ⟨rejected_of_settled? hbot hfirst, hdrop⟩, hlast⟩

end Loop

end TalonX.Notify
