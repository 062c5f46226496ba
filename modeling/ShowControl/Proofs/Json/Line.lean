import ShowControl.Json.Printer
import ShowControl.Proofs.Json.NumberText

/-!
# What is written is one line

The writer pushes characters behind a text; here they are the list `chars`, which is what the text
of a value consists of (`toList_render`) and what the proofs about reading it go through.

No character of it is below the blank (`le_of_mem_chars`): numbers and words have none, and those of
strings are escaped. So a written value holds no line feed and no carriage return, whatever the
strings within it hold.
-/

namespace ShowControl.Json

/-! ### The characters that are written -/

/-- The characters of a quoted string. -/
def textChars (text : String) : List Char := '"' :: (text.toList.flatMap escape ++ ['"'])

mutual

/-- The characters of a value. -/
def chars : Json → List Char
  | .null => ['n', 'u', 'l', 'l']
  | .bool true => ['t', 'r', 'u', 'e']
  | .bool false => ['f', 'a', 'l', 's', 'e']
  | .integer value => Number.integerText value
  | .float value => Number.floatText value
  | .string value => textChars value
  | .array [] => ['[', ']']
  | .array (item :: items) => '[' :: (chars item ++ itemsChars items ++ [']'])
  | .object [] => ['\x7b', '\x7d']
  | .object ((key, value) :: members) =>
    '\x7b' :: (textChars key ++ ':' :: chars value ++ membersChars members ++ ['\x7d'])

/-- The characters of the items after the first. -/
def itemsChars : List Json → List Char
  | [] => []
  | item :: items => ',' :: (chars item ++ itemsChars items)

/-- The characters of the members after the first. -/
def membersChars : List (String × Json) → List Char
  | [] => []
  | (key, value) :: members => ',' :: (textChars key ++ ':' :: chars value ++ membersChars members)

end

@[simp] theorem toList_pushAll (out : String) (cs : List Char) :
    (pushAll out cs).toList = out.toList ++ cs := by
  induction cs generalizing out with
  | nil => simp [pushAll]
  | cons c cs ih =>
    have step : pushAll out (c :: cs) = pushAll (out.push c) cs := rfl
    rw [step, ih, String.toList_push, List.append_assoc, List.singleton_append]

@[simp] theorem toList_writeText (out text : String) :
    (writeText out text).toList = out.toList ++ textChars text := by
  have content (cs : List Char) (out : String) :
      (cs.foldl (fun out c ↦ pushAll out (escape c)) out).toList =
        out.toList ++ cs.flatMap escape := by
    induction cs generalizing out with
    | nil => simp
    | cons c cs ih => simp [ih]
  simp [writeText, textChars, String.foldl_eq_foldl_toList, content]

mutual

theorem toList_write (out : String) :
    ∀ value : Json, (write out value).toList = out.toList ++ chars value
  | .null => by simp [write, chars]
  | .bool true => by simp [write, chars]
  | .bool false => by simp [write, chars]
  | .integer value => by simp [write, chars]
  | .float value => by simp [write, chars]
  | .string value => by simp [write, chars]
  | .array [] => by simp [write, chars]
  | .array (item :: items) => by simp [write, chars, toList_writeItems, toList_write]
  | .object [] => by simp [write, chars]
  | .object ((key, value) :: members) => by
    simp [write, chars, toList_writeMembers, toList_write]

theorem toList_writeItems (out : String) :
    ∀ items : List Json, (writeItems out items).toList = out.toList ++ itemsChars items
  | [] => by simp [writeItems, itemsChars]
  | item :: items => by simp [writeItems, itemsChars, toList_writeItems, toList_write]

theorem toList_writeMembers (out : String) :
    ∀ members : List (String × Json),
      (writeMembers out members).toList = out.toList ++ membersChars members
  | [] => by simp [writeMembers, membersChars]
  | (key, value) :: members => by
    simp [writeMembers, membersChars, toList_writeMembers, toList_write]

end

/-- The text of a value consists of its characters. -/
theorem toList_render (value : Json) : (render value).toList = chars value := by
  simp [render, toList_write]

/-! ### None of them is a control character -/

theorem le_hexDigit (n : ℕ) : ' ' ≤ hexDigit n := by
  have all : ∀ k : Fin 16, ' ' ≤ (k.val % 16).digitChar := by decide
  simpa [hexDigit] using all ⟨n % 16, Nat.mod_lt _ (by decide)⟩

theorem le_of_mem_escape (c : Char) : ∀ a ∈ escape c, ' ' ≤ a := by
  rw [escape]
  split_ifs with _ _ _ _ _ _ _ control
  iterate 7
    · simp
  · simp only [List.forall_mem_cons]
    exact ⟨by decide, by decide, by decide, by decide, le_hexDigit _, le_hexDigit _, by simp⟩
  · simpa using Char.not_lt.1 control

theorem le_of_mem_textChars (text : String) : ∀ a ∈ textChars text, ' ' ≤ a := by
  rw [textChars, List.forall_mem_cons, List.forall_mem_append]
  refine ⟨by decide, fun a ha ↦ ?_, by simp⟩
  obtain ⟨c, -, ha⟩ := List.mem_flatMap.1 ha
  exact le_of_mem_escape c a ha

/-- Nothing that may stand in a number is a control character. -/
theorem le_of_isNumberPart {c : Char} (h : Reader.isNumberPart c = true) : ' ' ≤ c := by
  simp only [Reader.isNumberPart, Bool.or_eq_true, decide_eq_true_eq] at h
  rcases h with ((((digit | rfl) | rfl) | rfl) | rfl) | rfl
  · have low := (Char.isDigit_iff_toNat.1 digit).1
    exact Char.le_def.2 (UInt32.le_iff_toNat_le.2 ((by decide : 32 ≤ 48).trans low))
  all_goals decide

theorem le_of_mem_floatText (x : Numeric.Double) : ∀ a ∈ Number.floatText x, ' ' ≤ a := by
  by_cases finite : x.isFinite
  · exact fun a ha ↦ le_of_isNumberPart ((Number.isToken_floatText finite).2 a ha)
  · rw [Number.floatText, if_neg finite]
    simp

mutual

/-- No character that is written is a control character. -/
theorem le_of_mem_chars : ∀ value : Json, ∀ a ∈ chars value, ' ' ≤ a
  | .null => by simp [chars]
  | .bool true => by simp [chars]
  | .bool false => by simp [chars]
  | .integer value => fun a ha ↦ le_of_isNumberPart ((Number.isToken_integerText value).2 a ha)
  | .float value => le_of_mem_floatText value
  | .string value => le_of_mem_textChars value
  | .array [] => by simp [chars]
  | .array (item :: items) => by
    simp only [chars, List.forall_mem_cons, List.forall_mem_append]
    exact ⟨by decide, ⟨le_of_mem_chars item, le_of_mem_itemsChars items⟩, by simp⟩
  | .object [] => by simp [chars]
  | .object ((key, value) :: members) => by
    simp only [chars, List.forall_mem_cons, List.forall_mem_append]
    exact ⟨by decide, ⟨⟨le_of_mem_textChars key, by decide, le_of_mem_chars value⟩,
      le_of_mem_membersChars members⟩, by simp⟩

theorem le_of_mem_itemsChars : ∀ items : List Json, ∀ a ∈ itemsChars items, ' ' ≤ a
  | [] => by simp [itemsChars]
  | item :: items => by
    simp only [itemsChars, List.forall_mem_cons, List.forall_mem_append]
    exact ⟨by decide, le_of_mem_chars item, le_of_mem_itemsChars items⟩

theorem le_of_mem_membersChars : ∀ members : List (String × Json),
    ∀ a ∈ membersChars members, ' ' ≤ a
  | [] => by simp [membersChars]
  | (key, value) :: members => by
    simp only [membersChars, List.forall_mem_cons, List.forall_mem_append]
    exact ⟨by decide, ⟨le_of_mem_textChars key, by decide, le_of_mem_chars value⟩,
      le_of_mem_membersChars members⟩

end

end ShowControl.Json
