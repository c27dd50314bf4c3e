import Pbox.Lib.Strings

/-! Errors as chains of messages, the outermost first, with the typed value at the root that a
caller may look for. Adding context keeps everything the chain already mentions. -/

namespace Pbox.Lib.ErrorChain
open Pbox.Lib.Strings

structure Chain (Root : Type) where
  message : Text
  causes : List Text
  root : Option Root
  deriving DecidableEq

def COLON : Text := ": ".toList

section Chains
variable {Root : Type}

def Chain.of (message : Text) : Chain Root := ⟨message, [], none⟩

def Chain.context (error : Chain Root) (message : Text) : Chain Root :=
  ⟨message, error.message :: error.causes, error.root⟩

/-- An error without a typed root, among those that may have one. -/
def Chain.widen (error : Chain Empty) : Chain Root := ⟨error.message, error.causes, none⟩

/-- The whole chain on one line. -/
def Chain.full (error : Chain Root) : Text :=
  error.message ++ error.causes.flatMap fun cause => COLON ++ cause

/-- A second error is told in the context of the first. -/
def Chain.attach (primary : Chain Root) (label : Text) (secondary : Chain Root) : Chain Root :=
  primary.context (label ++ COLON ++ secondary.full)

def Mentions (error : Chain Root) (text : Text) : Prop := text <:+: error.full

instance (error : Chain Root) (text : Text) : Decidable (Mentions error text) :=
  inferInstanceAs (Decidable (text <:+: error.full))

@[simp] theorem context_root (error : Chain Root) (message : Text) :
    (error.context message).root = error.root := rfl

@[simp] theorem attach_root (primary secondary : Chain Root) (label : Text) :
    (primary.attach label secondary).root = primary.root := rfl

@[simp] theorem widen_root (error : Chain Empty) : (error.widen : Chain Root).root = none := rfl

@[simp] theorem widen_message (error : Chain Empty) : (error.widen : Chain Root).message = error.message := rfl

theorem full_context (error : Chain Root) (message : Text) :
    (error.context message).full = message ++ (COLON ++ error.full) := by
  simp [Chain.full, Chain.context]

theorem mentions_message (error : Chain Root) {text : Text} (part : text <:+: error.message) :
    Mentions error text :=
  part.trans (List.prefix_append _ _).isInfix

theorem mentions_context (error : Chain Root) {message text : Text} (part : text <:+: message) :
    Mentions (error.context message) text :=
  mentions_message _ part

theorem Mentions.context {error : Chain Root} {text : Text} (mentions : Mentions error text)
    (message : Text) : Mentions (error.context message) text := by
  unfold Mentions at mentions ⊢
  rw [full_context, ← List.append_assoc]
  exact mentions.trans (List.suffix_append _ _).isInfix

theorem Mentions.attach {primary : Chain Root} {text : Text} (mentions : Mentions primary text)
    (label : Text) (secondary : Chain Root) : Mentions (primary.attach label secondary) text :=
  mentions.context _

theorem Mentions.attached {secondary : Chain Root} {text : Text} (mentions : Mentions secondary text)
    (primary : Chain Root) (label : Text) : Mentions (primary.attach label secondary) text :=
  mentions_context _ (mentions.trans (List.suffix_append _ _).isInfix)

theorem mentions_full (error : Chain Root) : Mentions error error.full := List.infix_refl _

end Chains

end Pbox.Lib.ErrorChain
