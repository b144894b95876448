import Mathlib.Data.List.Basic

/-! A receiver of a bounded broadcast channel. A sender never waits: where the receiver is
a whole capacity behind, the oldest message is overwritten and only counted. -/

namespace Foundation

structure Subscription (Message : Type*) where
  unread : List Message := []
  missed : Nat := 0
  deriving DecidableEq, Repr

namespace Subscription
variable {Message : Type*}

def send (capacity : Nat) (subscription : Subscription Message) (message : Message) : Subscription Message :=
  if subscription.unread.length < capacity then { subscription with unread := subscription.unread ++ [message] }
  else { unread := subscription.unread.tail ++ [message], missed := subscription.missed + 1 }

def sendEach (capacity : Nat) (subscription : Subscription Message) : List Message → Subscription Message
  | [] => subscription
  | message :: rest => (subscription.send capacity message).sendEach capacity rest

/-- What the messages overwrite when they are sent one after the other. -/
def overwritten (capacity : Nat) (subscription : Subscription Message) : List Message → List Message
  | [] => []
  | message :: rest =>
    let later := (subscription.send capacity message).overwritten capacity rest
    if subscription.unread.length < capacity then later else subscription.unread.head?.toList ++ later

/-- The next thing received. A receiver that missed messages is told how many, once. -/
inductive Received (Message : Type*) where
  | message (message : Message)
  | lagged (missed : Nat)

def receive (subscription : Subscription Message) : Option (Received Message × Subscription Message) :=
  if 0 < subscription.missed then some (.lagged subscription.missed, { subscription with missed := 0 })
  else
    match subscription.unread with
    | [] => none
    | message :: rest => some (.message message, { subscription with unread := rest })

variable {capacity : Nat} {subscription : Subscription Message}

/-- Either a message is received or the count of the missed ones. -/
theorem receive_cases {received : Received Message} {after : Subscription Message}
    (taken : subscription.receive = some (received, after)) :
    (∃ message rest, subscription.unread = message :: rest ∧ received = .message message ∧
      after = { subscription with unread := rest }) ∨
    (received = .lagged subscription.missed ∧ after = { subscription with missed := 0 }) := by
  unfold receive at taken
  split at taken
  · cases taken
    exact .inr ⟨rfl, rfl⟩
  · split at taken
    next => cases taken
    next message rest unread =>
      cases taken
      exact .inl ⟨message, rest, unread, rfl, rfl⟩

theorem send_unread (positive : 0 < capacity) (message : Message) :
    (if subscription.unread.length < capacity then [] else subscription.unread.head?.toList) ++
      (subscription.send capacity message).unread = subscription.unread ++ [message] := by
  unfold send
  split
  · rfl
  · match unread : subscription.unread with
    | [] => simp_all
    | first :: rest => rfl

/-- The receiver keeps what was not overwritten, in the order of the sends. -/
theorem sendEach_unread (positive : 0 < capacity) (messages : List Message) :
    subscription.overwritten capacity messages ++ (subscription.sendEach capacity messages).unread =
      subscription.unread ++ messages := by
  induction messages generalizing subscription with
  | nil => rw [overwritten, sendEach, List.nil_append, List.append_nil]
  | cons message rest ih =>
    have first := @send_unread _ _ subscription positive message
    rw [overwritten, sendEach]
    split at first
    next room =>
      rw [List.nil_append] at first
      rw [if_pos room, ih, first, List.append_assoc, List.singleton_append]
    next full =>
      rw [if_neg full, List.append_assoc, ih, ← List.append_assoc, first, List.append_assoc, List.singleton_append]

end Subscription
end Foundation
