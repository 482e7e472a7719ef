import GateRules.Admission
import GateRules.Proofs.Escaping

/-!
# Requests that come back

A request that is written in JSON is read as itself, whatever its texts hold and whether its rules are absent, none or many.
What is written for a value is read as the value wherever it stands (`Json.ReadsAs`), and so the proof goes up from the
strings through the lists and objects that hold them. An object is read by taking its members one by one into what was read
so far (`Json.Takes`); a field is taken unless it was read before (`Json.Shape.run_member`).
-/

namespace GateRules

/-! ## Texts that are read wherever they stand -/

/-- A text that a reader takes for a value, whatever is behind it. It starts like a string, a list or an object, and so it is
taken neither for white space nor for `null` nor for the end of a list. -/
structure Json.ReadsAs (r : Json.Decoder α) (text : List Char) (a : α) : Prop where
  starts : ∃ c more, text = c :: more ∧ (c = '"' ∨ c = '[' ∨ c = '\x7b')
  run : ∀ rest, r.run (text ++ rest) = .ok (a, rest)

theorem Json.run_quoted (otherwise : Char → List Char → Fault) (cs : List Char) :
    (quoted otherwise).run ('"' :: cs) = Reader.mapValue String.ofList (readString cs) := rfl

theorem Json.run_word (words : List (String × α)) (cs : List Char) :
    (word words).run ('"' :: cs) = (check string (chosen words)).run ('"' :: cs) := rfl

theorem Json.run_list (r : Json.Decoder α) (cs : List Char) : (list r).run ('[' :: cs) = elements r true cs := rfl

theorem Json.run_colon (cs : List Char) : (mark ':').run (':' :: cs) = .ok ((), cs) := rfl

/-- A string as it is written is read as the string, whatever is refused in its place. -/
theorem Json.readsAs_writeString (otherwise : Char → List Char → Fault) (text : String) :
    ReadsAs (quoted otherwise) (writeString text.toList) text := by
  refine ⟨⟨'"', _, rfl, .inl rfl⟩, ?_⟩
  intro rest
  rw [writeString_append, run_quoted, readString_escaped, Reader.mapValue_ok, String.ofList_toList]

/-- What is read and then put through a function is read as what the function gives. -/
theorem Json.ReadsAs.map {r : Json.Decoder α} {text : List Char} {a : α} (h : ReadsAs r text a) (f : α → β) :
    ReadsAs (r.map f) text (f a) := by
  refine ⟨h.starts, ?_⟩
  intro rest
  simp only [Reader.map, h.run, Reader.mapValue_ok]

theorem Json.run_check_ok {r : Json.Decoder α} {f : α → Except Misfit β} {cs rest : List Char} {a : α} {b : β}
    (h : r.run cs = .ok (a, rest)) (hf : f a = .ok b) : (check r f).run cs = .ok (b, rest) := by
  simp only [check, Reader.refine, h, hf]
  rfl

/-- A text is read as what the check makes of its value. -/
theorem Json.ReadsAs.check {r : Json.Decoder α} {f : α → Except Misfit β} {text : List Char} {a : α} {b : β}
    (h : ReadsAs r text a) (hf : f a = .ok b) : ReadsAs (check r f) text b := by
  refine ⟨h.starts, ?_⟩
  intro rest
  exact run_check_ok (h.run rest) hf

/-- Where a value may be `null`, a value that is there is read as there. -/
theorem Json.ReadsAs.orNull {r : Json.Decoder α} {text : List Char} {a : α} (h : ReadsAs r text a) :
    ReadsAs (orNull r) text (some a) := by
  refine ⟨h.starts, ?_⟩
  intro rest
  obtain ⟨c, more, rfl, hc⟩ := h.starts
  have present : (Json.orNull r).run (c :: (more ++ rest)) = Reader.mapValue some (r.run (c :: (more ++ rest))) := by
    rcases hc with rfl | rfl | rfl <;> rfl
  rw [List.cons_append, present, ← List.cons_append, h.run, Reader.mapValue_ok]

/-- A word of a choice is read as what it stands for. -/
theorem Json.readsAs_word {words : List (String × α)} {text : List Char} {a : α}
    (h : chosen words (String.ofList text) = .ok a) : ReadsAs (word words) (writeString text) a := by
  have string := (readsAs_writeString (mismatch .string) (String.ofList text)).check h
  rw [String.toList_ofList] at string
  refine ⟨string.starts, ?_⟩
  intro rest
  have run := string.run rest
  rw [writeString_append] at run ⊢
  rw [run_word]
  exact run

/-! ## Lists -/

/-- Items with commas between them are the first item and then every other item after a comma. -/
theorem Json.intercalate_cons (sep x : List Char) (xs : List (List Char)) :
    sep.intercalate (x :: xs) = x ++ xs.flatMap (sep ++ ·) := by
  induction xs generalizing x with
  | nil => simp
  | cons y ys ih => rw [List.intercalate_cons_cons, ih, List.flatMap_cons, List.append_assoc, List.append_assoc]

theorem Json.elements_of_close {r : Json.Decoder α} {isFirst : Bool} {cs rest : List Char}
    (h : nextElement isFirst cs = .ok (.close rest)) : elements r isFirst cs = .ok ([], rest) := by
  rw [elements]
  split <;> simp_all

theorem Json.elements_of_item {r : Json.Decoder α} {isFirst : Bool} {cs here rest : List Char} {a : α}
    (hn : nextElement isFirst cs = .ok (.item here)) (hr : r.run here = .ok (a, rest)) :
    elements r isFirst cs = Reader.mapValue (a :: ·) (elements r false rest) := by
  rw [elements]
  split <;> simp_all
  split <;> simp_all

/-- A value that is written first in a list is the next element of it. -/
theorem Json.ReadsAs.nextElement_first {r : Json.Decoder α} {text : List Char} {a : α} (h : ReadsAs r text a)
    (rest : List Char) : nextElement true (text ++ rest) = .ok (.item (text ++ rest)) := by
  obtain ⟨c, more, rfl, hc⟩ := h.starts
  rcases hc with rfl | rfl | rfl <;> rfl

/-- A value that is written after a comma is the next element of a list. -/
theorem Json.ReadsAs.nextElement_later {r : Json.Decoder α} {text : List Char} {a : α} (h : ReadsAs r text a)
    (rest : List Char) : nextElement false (',' :: (text ++ rest)) = .ok (.item (text ++ rest)) := by
  obtain ⟨c, more, rfl, hc⟩ := h.starts
  rcases hc with rfl | rfl | rfl <;> rfl

/-- Values that are written with a comma before each are read up to the end of the list. -/
theorem Json.elements_written {r : Json.Decoder α} {write : α → List Char} {as : List α}
    (h : ∀ a ∈ as, ReadsAs r (write a) a) (rest : List Char) :
    elements r false ((as.map write).flatMap ([','] ++ ·) ++ ']' :: rest) = .ok (as, rest) := by
  induction as with
  | nil => exact elements_of_close rfl
  | cons a as ih =>
    have first := h a List.mem_cons_self
    have more := ih fun x hx => h x (List.mem_cons_of_mem a hx)
    rw [List.map_cons, List.flatMap_cons, List.append_assoc, List.append_assoc, List.singleton_append,
      elements_of_item (first.nextElement_later _) (first.run _), more, Reader.mapValue_ok]

/-- A list as it is written is read as the list, if each of its elements is. -/
theorem Json.readsAs_writeList {r : Json.Decoder α} {write : α → List Char} {as : List α}
    (h : ∀ a ∈ as, ReadsAs r (write a) a) : ReadsAs (list r) (writeList (as.map write)) as := by
  refine ⟨⟨'[', _, rfl, .inr (.inl rfl)⟩, ?_⟩
  intro rest
  rw [writeList, List.cons_append, List.cons_append, run_list]
  cases as with
  | nil => exact elements_of_close rfl
  | cons a as =>
    have first := h a List.mem_cons_self
    have more := elements_written (fun x hx => h x (List.mem_cons_of_mem a hx)) rest
    rw [List.map_cons, intercalate_cons, List.append_assoc, List.append_assoc, List.singleton_append,
      elements_of_item (first.nextElement_first _) (first.run _), more, Reader.mapValue_ok]

/-! ## Records -/

theorem Json.members_of_close {member : σ → String → Json.Decoder σ} {isFirst : Bool} {s : σ} {cs rest : List Char}
    (h : nextMember isFirst cs = .ok (.close rest)) : members member isFirst s cs = .ok (s, rest) := by
  rw [members]
  split <;> simp_all

/-- An object that goes on adds its next member, and then those behind it. -/
theorem Json.members_of_item {member : σ → String → Json.Decoder σ} {isFirst : Bool} {s t : σ}
    {cs here key after rest : List Char} (hn : nextMember isFirst cs = .ok (.item here))
    (hk : readString here = .ok (key, after)) (hr : (member s (String.ofList key)).run after = .ok (t, rest)) :
    members member isFirst s cs = members member false t rest := by
  rw [members]
  split <;> simp_all
  split <;> simp_all
  split <;> simp_all

/-- Members that take what was read so far from one state to another, whatever is behind each of them. -/
inductive Json.Takes (member : σ → String → Json.Decoder σ) : σ → List (String × List Char) → σ → Prop
  | nil {s : σ} : Takes member s [] s
  | cons {s next last : σ} {key : String} {value : List Char} {ms : List (String × List Char)}
      (first : ∀ rest, (member s key).run (':' :: (value ++ rest)) = .ok (next, rest)) (more : Takes member next ms last) :
      Takes member s ((key, value) :: ms) last

/-- A member as it is written. -/
def Json.writeMember (m : String × List Char) : List Char := writeString m.1.toList ++ ':' :: m.2

theorem Json.writeObject_eq (ms : List (String × List Char)) :
    writeObject ms = '\x7b' :: [','].intercalate (ms.map writeMember) ++ ['\x7d'] := rfl

/-- A member is taken after what may stand in front of it, which is a comma or nothing. -/
theorem Json.members_of_written {member : σ → String → Json.Decoder σ} {isFirst : Bool} {s next : σ} {key : String}
    {value : List Char} (front : List Char)
    (hn : ∀ here, nextMember isFirst (front ++ '"' :: here) = .ok (.item here))
    (taken : ∀ rest, (member s key).run (':' :: (value ++ rest)) = .ok (next, rest)) (rest : List Char) :
    members member isFirst s (front ++ (writeMember (key, value) ++ rest)) = members member false next rest := by
  have text : front ++ (writeMember (key, value) ++ rest) =
      front ++ '"' :: (key.toList.flatMap escape ++ '"' :: ':' :: (value ++ rest)) := by
    rw [writeMember, List.append_assoc, writeString_append, List.cons_append]
  rw [text]
  refine members_of_item (hn _) (readString_escaped _ _) ?_
  rw [String.ofList_toList]
  exact taken rest

/-- Members that are written with a comma before each are read up to the end of the object. -/
theorem Json.members_of_takes {member : σ → String → Json.Decoder σ} {s t : σ} {ms : List (String × List Char)}
    (h : Takes member s ms t) (rest : List Char) :
    members member false s ((ms.map writeMember).flatMap ([','] ++ ·) ++ '\x7d' :: rest) = .ok (t, rest) := by
  induction h with
  | nil => exact members_of_close rfl
  | cons first more ih =>
    rw [List.map_cons, List.flatMap_cons, List.append_assoc, List.append_assoc,
      members_of_written [','] (fun _ => rfl) first, ih]

/-- A record is read from an object if its members are and what they leave makes a record. -/
theorem Json.run_record_of_members {shape : Shape σ α} {cs rest : List Char} {t : σ} {a : α}
    (h : members shape.member true shape.start cs = .ok (t, rest)) (finish : shape.finish t = .ok a) :
    (record shape).run ('\x7b' :: cs) = .ok (a, rest) :=
  run_check_ok h finish

/-- A record as it is written is read as the record, if its members make it up. -/
theorem Json.readsAs_writeObject {shape : Shape σ α} {ms : List (String × List Char)} {t : σ} {a : α}
    (h : Takes shape.member shape.start ms t) (finish : shape.finish t = .ok a) :
    ReadsAs (record shape) (writeObject ms) a := by
  refine ⟨⟨'\x7b', _, rfl, .inr (.inr rfl)⟩, ?_⟩
  intro rest
  have members : members shape.member true shape.start
      ([','].intercalate (ms.map writeMember) ++ '\x7d' :: rest) = .ok (t, rest) := by
    cases h with
    | nil => exact members_of_close rfl
    | cons first more =>
      rw [List.map_cons, intercalate_cons, List.append_assoc]
      exact (members_of_written [] (fun _ => rfl) first _).trans (members_of_takes more rest)
  rw [writeObject_eq, List.cons_append, List.cons_append, List.append_assoc]
  exact run_record_of_members members finish

/-- A member that is a field of the record takes what its value is read as, unless the field was read before. -/
theorem Json.Shape.run_member {shape : Shape σ α} {field : Field σ} {s next : σ} {key : String} {value : List Char}
    (found : (shape.fields.find? fun f => f.name = key) = some field) (unread : field.isRead s = false)
    (h : ReadsAs (field.read s) value next) (rest : List Char) :
    (shape.member s key).run (':' :: (value ++ rest)) = .ok (next, rest) := by
  have member : shape.member s key = (mark ':').andThen fun _ => field.read s := by
    simp only [Shape.member, found, unread]
    rfl
  rw [member, Reader.run_andThen_ok (run_colon _)]
  exact h.run rest

/-! ## Requests -/

/-- A term as it is written is read as the term. -/
theorem Term.readsAs_encode (term : Term) : Json.ReadsAs Term.decoder term.encode term := by
  have field := Json.readsAs_writeString (Json.mismatch .string) term.field
  have operator := Json.readsAs_writeString (Json.mismatch .string) term.operator
  have value := Json.readsAs_writeString (Json.mismatch .string) term.value
  -- Of each member it has to be said that its name is that of a field and that the field was not read before.
  exact Json.readsAs_writeObject
    (.cons (Json.Shape.run_member rfl rfl (field.map _)) <|
      .cons (Json.Shape.run_member rfl rfl (operator.map _)) <|
      .cons (Json.Shape.run_member rfl rfl (value.map _)) .nil) rfl

/-- A group as it is written is read as the group. -/
theorem Draft.readsAs_encodeGroup (terms : List Term) :
    Json.ReadsAs Draft.groupDecoder (Draft.encodeGroup terms) terms := by
  have condition : Json.ReadsAs (Json.word [("AND", ())]) (Json.writeString ['A', 'N', 'D']) () :=
    Json.readsAs_word rfl
  have expressions := Json.readsAs_writeList fun term (_ : term ∈ terms) => term.readsAs_encode
  exact Json.readsAs_writeObject
    (.cons (Json.Shape.run_member rfl rfl (condition.map _)) <|
      .cons (Json.Shape.run_member rfl rfl (expressions.map _)) .nil) rfl

/-- A request as it is written is read as the request. Absent rules are not written at all, and so they are not read as an
empty list. -/
theorem Request.readsAs_encode (request : Request) : Json.ReadsAs Request.decoder request.encode request := by
  have condition : Json.ReadsAs (Json.word [("OR", ())]) (Json.writeString ['O', 'R']) () := Json.readsAs_word rfl
  obtain ⟨rules⟩ := request
  cases rules with
  | none => exact Json.readsAs_writeObject (.cons (Json.Shape.run_member rfl rfl (condition.map _)) .nil) rfl
  | some draft =>
    have rules := Json.readsAs_writeList fun group (_ : group ∈ draft) => Draft.readsAs_encodeGroup group
    exact Json.readsAs_writeObject
      (.cons (Json.Shape.run_member rfl rfl (condition.map _)) <|
        .cons (Json.Shape.run_member rfl rfl (rules.orNull.map _)) .nil) rfl

/-! ## Whole texts -/

/-- A text that is read wherever it stands is read where it stands alone. -/
theorem Json.ReadsAs.readAll {r : Json.Decoder α} {text : List Char} {a : α} (h : ReadsAs r text a) :
    readAll r (String.ofList text) = .ok a := by
  have run := h.run []
  rw [List.append_nil] at run
  simp only [Json.readAll, String.toList_ofList, run]
  rfl

/-- A request is read back from its text. -/
theorem Request.ofJson_toJson (request : Request) : ofJson request.toJson = .ok request :=
  request.readsAs_encode.readAll

/-- What is written in JSON comes back, in four parts.
1. A request, whether its rules are absent, none or many, is read as the request.
2. A group of terms is read as the group.
3. A term is read as the term, whatever characters its three texts hold.
4. A conditional rule is written as the text of the request for the draft of its body, which is the answer for the rule, and the
   text comes to what that request comes to, be that a rule or a refusal, for every action and tenant and whatever is served, and
   the same is told on the way. -/
theorem Request.json_round_trip :
    (∀ request : Request, ofJson request.toJson = .ok request) ∧
    (∀ terms : List Term, Json.readAll Draft.groupDecoder (String.ofList (Draft.encodeGroup terms)) = .ok terms) ∧
    (∀ term : Term, Json.readAll Term.decoder (String.ofList term.encode) = .ok term) ∧
    (∀ (body : Body) (flow : Flow) (owner : String), ∃ text request,
      (Rule.conditional body flow owner).toJson? = some text ∧
      (Rule.conditional body flow owner).request? = some request ∧
      request = ⟨some body.draft⟩ ∧ text = request.toJson ∧
      ∀ (action : Action) (tenant : String) (serve : Lookup),
        Rule.ofJson text action tenant serve = Rule.ofRequest request action tenant serve) := by
  refine ⟨ofJson_toJson, ?_, ?_, ?_⟩
  · intro terms
    exact (Draft.readsAs_encodeGroup terms).readAll
  · intro term
    exact term.readsAs_encode.readAll
  · intro body flow owner
    refine ⟨_, ⟨some body.draft⟩, rfl, rfl, rfl, rfl, ?_⟩
    intro action tenant serve
    simp only [Rule.ofJson, ofJson_toJson]

/-- Absent rules and an empty list of rules are written differently. -/
example : (⟨none⟩ : Request).toJson = "\x7b\"condition\":\"OR\"\x7d" ∧
    (⟨some []⟩ : Request).toJson = "\x7b\"condition\":\"OR\",\"rules\":[]\x7d" := by
  decide

end GateRules
