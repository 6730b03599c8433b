import Mathlib.Tactic.Common

/-!
# Reading back delimited text

A small library for text that a writer concatenates and a reader takes apart
again.  A `Reader` takes one item off the front of a text.  `Recovers` says that
it takes off what the writer wrote, whatever comes behind it.

* `readUntil` stops in front of a delimiter (`recovers_readUntil`);
* `readQuoted` undoes an escape code symbol by symbol up to a closing quote
  (`recovers_readQuoted`);
* `readAll` reads items to the end of the text (`readAll_flatMap`).
-/

namespace DelimitedText

/-- Takes one item off the front of a text. -/
abbrev Reader (β α : Type) : Type := List β → Option (α × List β)

variable {β α : Type}

/-- The reader takes off what was written for an item in front of what may follow it. -/
def Recovers (read : Reader β α) (write : α → List β) (valid : α → Prop)
    (follows : List β → Prop) : Prop :=
  ∀ a rest, valid a → follows rest → read (write a ++ rest) = some (a, rest)

theorem Recovers.mono {read : Reader β α} {write : α → List β} {valid valid' : α → Prop}
    {follows follows' : List β → Prop} (h : Recovers read write valid follows)
    (hvalid : ∀ a, valid' a → valid a) (hfollows : ∀ rest, follows' rest → follows rest) :
    Recovers read write valid' follows' :=
  fun a rest ha hrest => h a rest (hvalid a ha) (hfollows rest hrest)

/-- Items that are written alike are equal. -/
theorem Recovers.injective {read : Reader β α} {write : α → List β} {valid : α → Prop}
    {follows : List β → Prop} (h : Recovers read write valid follows) (hend : follows [])
    {a a' : α} (ha : valid a) (ha' : valid a') (heq : write a = write a') : a = a' := by
  have hread := h a [] ha hend
  rw [heq, h a' [] ha' hend] at hread
  exact (congrArg Prod.fst (Option.some.inj hread)).symm

/-- A text has at least one symbol for each item when every item is written visibly. -/
theorem length_le_length_flatMap {write : α → List β} (hwrite : ∀ a, write a ≠ [])
    (items : List α) : items.length ≤ (items.flatMap write).length := by
  induction items with
  | nil => exact Nat.zero_le _
  | cons a items ih =>
      have ha : 0 < (write a).length := List.length_pos_iff.mpr (hwrite a)
      rw [List.flatMap_cons, List.length_append, List.length_cons]
      omega

/-! ## Delimiters -/

/-- Nothing follows, or a delimiter. -/
def EndsAt (stop : β → Bool) : List β → Prop
  | [] => True
  | b :: _ => stop b = true

/-- Reads up to the first delimiter. -/
def readUntil (stop : β → Bool) : Reader β (List β)
  | [] => some ([], [])
  | b :: rest =>
      if stop b then some ([], b :: rest)
      else (readUntil stop rest).map fun (item, rest) => (b :: item, rest)

/-- Text without a delimiter is read whole. -/
theorem recovers_readUntil (stop : β → Bool) :
    Recovers (readUntil stop) id (fun item => ∀ b ∈ item, stop b = false) (EndsAt stop) := by
  intro item rest hitem hrest
  induction item with
  | nil =>
      cases rest with
      | nil => rfl
      | cons b rest => exact if_pos hrest
  | cons b item ih =>
      have hb : stop b = false := hitem b List.mem_cons_self
      have hread := ih fun b' hb' => hitem b' (List.mem_cons_of_mem b hb')
      rw [id, List.cons_append, readUntil, hb, if_neg Bool.false_ne_true]
      rw [id] at hread
      rw [hread]
      rfl

/-! ## Quotes -/

/-- Reads symbols up to a closing quote, at most `fuel` of them. -/
def readSymbols [DecidableEq β] (quote : β) (readSymbol : Reader β β) :
    Nat → Reader β (List β)
  | 0, _ => none
  | _ + 1, [] => none
  | fuel + 1, b :: rest =>
      if b = quote then some ([], rest)
      else do
        let (symbol, rest) ← readSymbol (b :: rest)
        let (symbols, rest) ← readSymbols quote readSymbol fuel rest
        return (symbol :: symbols, rest)

/-- Reads symbols up to a closing quote. -/
def readQuoted [DecidableEq β] (quote : β) (readSymbol : Reader β β) : Reader β (List β) :=
  fun text => readSymbols quote readSymbol (text.length + 1) text

section Quotes

variable [DecidableEq β] {quote : β} {readSymbol : Reader β β} {escape : β → List β}

theorem readSymbols_flatMap (hsymbol : ∀ b rest, readSymbol (escape b ++ rest) = some (b, rest))
    (hescape : ∀ b, ∃ first tail, escape b = first :: tail ∧ first ≠ quote)
    (item rest : List β) (fuel : Nat) (hfuel : item.length < fuel) :
    readSymbols quote readSymbol fuel (item.flatMap escape ++ quote :: rest) =
      some (item, rest) := by
  induction item generalizing fuel with
  | nil =>
      cases fuel with
      | zero => cases hfuel
      | succ fuel => exact if_pos rfl
  | cons b item ih =>
      cases fuel with
      | zero => cases hfuel
      | succ fuel =>
          obtain ⟨first, tail, hfirst, hne⟩ := hescape b
          have hread := hsymbol b (item.flatMap escape ++ quote :: rest)
          rw [hfirst, List.cons_append] at hread
          rw [List.flatMap_cons, List.append_assoc, hfirst, List.cons_append, readSymbols,
            if_neg hne, hread]
          have hrest := ih fuel (Nat.lt_of_succ_lt_succ hfuel)
          simp only [Option.bind_eq_bind, Option.bind_some, hrest]
          rfl

/-- **Quoted text is read whole**, whatever follows the closing quote, when every symbol
is and no escape starts with the quote. -/
theorem recovers_readQuoted
    (hsymbol : ∀ b rest, readSymbol (escape b ++ rest) = some (b, rest))
    (hescape : ∀ b, ∃ first tail, escape b = first :: tail ∧ first ≠ quote) :
    Recovers (readQuoted quote readSymbol) (fun item => item.flatMap escape ++ [quote])
      (fun _ => True) (fun _ => True) := by
  intro item rest _ _
  have hwrite : ∀ b, escape b ≠ [] := by
    intro b
    obtain ⟨first, tail, hfirst, _⟩ := hescape b
    rw [hfirst]
    exact List.cons_ne_nil first tail
  have hlength := length_le_length_flatMap hwrite item
  rw [readQuoted, List.append_assoc, List.singleton_append]
  apply readSymbols_flatMap hsymbol hescape
  rw [List.length_append]
  omega

end Quotes

/-! ## Sequences -/

/-- Reads items to the end of the text, at most `fuel` of them. -/
def readMany (read : Reader β α) : Nat → List β → Option (List α)
  | _, [] => some []
  | 0, _ :: _ => none
  | fuel + 1, b :: text => do
      let (a, rest) ← read (b :: text)
      let items ← readMany read fuel rest
      return a :: items

/-- Reads items to the end of the text. -/
def readAll (read : Reader β α) (text : List β) : Option (List α) :=
  readMany read text.length text

theorem readMany_flatMap {read : Reader β α} {write : α → List β} {valid : α → Prop}
    {follows : List β → Prop} (hread : Recovers read write valid follows)
    (hend : follows []) (hfollows : ∀ a rest, valid a → follows (write a ++ rest))
    (hwrite : ∀ a, write a ≠ []) (items : List α) (hitems : ∀ a ∈ items, valid a) (fuel : Nat)
    (hfuel : items.length ≤ fuel) :
    readMany read fuel (items.flatMap write) = some items := by
  induction items generalizing fuel with
  | nil => rw [List.flatMap_nil, readMany]
  | cons a items ih =>
      have ha : valid a := hitems a List.mem_cons_self
      have hvalid : ∀ a' ∈ items, valid a' := fun a' ha' => hitems a' (List.mem_cons_of_mem a ha')
      have hrest : follows (items.flatMap write) := by
        cases items with
        | nil => exact hend
        | cons a' items => exact hfollows a' _ (hvalid a' List.mem_cons_self)
      cases fuel with
      | zero => cases hfuel
      | succ fuel =>
          have hfirst := hread a (items.flatMap write) ha hrest
          rw [List.flatMap_cons]
          obtain ⟨b, tail, htail⟩ := List.exists_cons_of_ne_nil (hwrite a)
          rw [htail, List.cons_append] at hfirst ⊢
          rw [readMany, hfirst]
          have hitems := ih hvalid fuel (Nat.le_of_succ_le_succ hfuel)
          simp only [Option.bind_eq_bind, Option.bind_some, hitems]
          rfl

/-- **A sequence of items is read whole** when each item is, in front of the next one and
at the end. -/
theorem readAll_flatMap {read : Reader β α} {write : α → List β} {valid : α → Prop}
    {follows : List β → Prop} (hread : Recovers read write valid follows)
    (hend : follows []) (hfollows : ∀ a rest, valid a → follows (write a ++ rest))
    (hwrite : ∀ a, write a ≠ []) (items : List α) (hitems : ∀ a ∈ items, valid a) :
    readAll read (items.flatMap write) = some items := by
  apply readMany_flatMap hread hend hfollows hwrite items hitems
  exact length_le_length_flatMap hwrite items

end DelimitedText
