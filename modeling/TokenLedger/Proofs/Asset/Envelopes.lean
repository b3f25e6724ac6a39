import TokenLedger.Proofs.Asset.Surfaces
import TokenLedger.Proofs.Store.RecordMap
import TokenLedger.Text.Decimal

/-!
# Envelopes of custom queries

A custom query is an object with one category, which holds an object with one variant, which holds
arguments of the variant's shape.  Such an envelope is what the custom module answers, but it looks
for one in what is left of a request without the members that have reserved names: these are gone
before the members are counted.
-/

namespace TokenLedger

/-! ### Requests without reserved members -/

namespace Json

/-- An object without its reserved members; anything else as it is. -/
def kept : Json → Json
  | .obj members => .obj (Shape.kept members)
  | j => j

/-- A request as it counts: without its own reserved members and those of the objects in it. -/
def counted (j : Json) : Json :=
  match j.kept with
  | .obj members => .obj (members.map fun m => (m.1, m.2.kept))
  | j => j

variable {j body value : Json} {name : String} {members : List (String × Json)}

theorem kept_eq_obj_iff :
    j.kept = .obj members ↔ ∃ all, j = .obj all ∧ Shape.kept all = members := by
  cases j <;> simp [kept]

theorem counted_eq_single_iff :
    j.counted = .obj [(name, value)] ↔
      ∃ all body, j = .obj all ∧ Shape.kept all = [(name, body)] ∧ body.kept = value := by
  cases j with
  | obj all => simp [counted, kept, List.map_eq_singleton_iff]
  | _ => simp [counted, kept]

/-- The positions of an array are no words. -/
theorem repr_ne (hname : name.toList.all Char.isDigit = false) (i : Nat) : i.repr ≠ name := by
  rintro rfl
  rw [Nat.toList_repr, Decimal.all_isDigit_toDigits] at hname
  cases hname

/-- What has a member with a word for a name is an object. -/
theorem eq_obj_of_members? (h : j.members? = some members) (hmem : (name, value) ∈ members)
    (hname : name.toList.all Char.isDigit = false) : j = .obj members := by
  cases j with
  | obj all => exact congrArg Json.obj (Option.some.inj h)
  | arr items =>
    obtain rfl := Option.some.inj h
    obtain ⟨⟨item, i⟩, -, heq⟩ := List.mem_map.mp hmem
    exact absurd (congrArg Prod.fst heq) (repr_ne hname i)
  | _ => cases h

end Json

/-! ### Refusals -/

/-- What a malformed request and one that nobody answers are refused with. -/
def Fault.IsRefusal (e : Fault) : Prop := e.name = "DecodeError" ∨ e.name = "UnsupportedError"

theorem Missing.not_isRefusal (missing : Missing) : ¬ (Fault.notFound missing).IsRefusal := by
  rintro (h | h)
  · exact absurd (show "NotFoundError" = "DecodeError" from h) (by decide)
  · exact absurd (show "NotFoundError" = "UnsupportedError" from h) (by decide)

namespace Checked

variable {α : Type} {x : Checked α} {a : α} {typeName : String} {e : Fault}

theorem orFault_eq_ok : x.orFault typeName = .ok a ↔ x = .valid a := by
  cases x <;> simp [orFault]

theorem isRefusal_of_orFault (h : x.orFault typeName = .error e) : e.IsRefusal := by
  cases x with
  | valid a => cases h
  | invalid issues =>
    obtain rfl := Except.error.inj h
    exact Or.inl rfl

end Checked

namespace Asset

/-! ### Envelopes -/

namespace Query

/-- The category in which a question is asked. -/
def category : Query → Category
  | .token _ | .tokens _ => .assetFt
  | .nftClass _ | .nftClasses _ => .assetNft
  | .nft .. | .nfts .. | .ownerOf .. => .nft

/-- The variant with which a question is asked. -/
def variant : Query → String
  | .token _ => "token"
  | .tokens _ => "tokens"
  | .nftClass _ => "class"
  | .nftClasses _ => "classes"
  | .nft .. => "nft"
  | .nfts .. => "nfts"
  | .ownerOf .. => "owner"

/-- A filter is a text; without a filter the member is missing or null. -/
def HasFilter (members : List (String × Json)) (name : String) : Option String → Prop
  | none => Json.find? name members = none ∨ Json.find? name members = some .null
  | some s => Inquiry.HasText members name s

/-- Arguments of the shape that the question has; further members may stand among them. -/
def AskedBy (arguments : List (String × Json)) : Query → Prop
  | .token denom => Inquiry.HasText arguments "denom" denom
  | .tokens issuer => Inquiry.HasText arguments "issuer" issuer
  | .nftClass id => Inquiry.HasText arguments "id" id
  | .nftClasses issuer => Inquiry.HasText arguments "issuer" issuer
  | .nft classId id | .ownerOf classId id =>
    Inquiry.HasText arguments "class_id" classId ∧ Inquiry.HasText arguments "id" id
  | .nfts classId owner =>
    HasFilter arguments "class_id" classId ∧ HasFilter arguments "owner" owner

/-- A request is an object with one member, the category, which is an object with one member, the
variant, which has arguments of the right shape. -/
def EnvelopedIn (q : Query) (request : Json) : Prop :=
  ∃ arguments members, request = .obj [(q.category.name, .obj [(q.variant, arguments)])] ∧
    arguments.members? = some members ∧ q.AskedBy members

/-- What is asked for can have a key. -/
def HasKey : Query → Prop
  | .nft classId _ | .ownerOf classId _ => Key.IsShort classId
  | _ => True

theorem variant_isWord (q : Query) : q.variant.toList.all Char.isDigit = false := by
  unfold variant
  split <;> decide

end Query

theorem Category.name_isWord (c : Category) : c.name.toList.all Char.isDigit = false := by
  cases c <;> rfl

theorem Category.ofName?_eq_some {name : String} {c : Category} :
    Category.ofName? name = some c ↔ c.name = name := by
  unfold Category.ofName?
  constructor
  · intro h
    have hname := List.find?_some h
    exact eq_of_beq hname
  · rintro rfl
    cases c <;> rfl

variable {request j arguments : Json} {q : Query} {c : Category} {name variant s : String}
  {members body : List (String × Json)} {e : Fault}

/-- An envelope has no reserved members. -/
theorem Query.EnvelopedIn.counted_eq (h : q.EnvelopedIn request) : request.counted = request := by
  obtain ⟨arguments, members, rfl, -, -⟩ := h
  cases q <;> rfl

/-- Two categories make no envelope. -/
theorem Query.not_envelopedIn_two (first second : String × Json) :
    ¬ q.EnvelopedIn (.obj [first, second]) := by
  rintro ⟨arguments, members, h, -⟩
  injections

/-! ### Categories and variants -/

theorem oneMember_eq_valid {α : Type} {issue : Issue} {shape : Shape (List α)} {xs : List α} :
    oneMember issue shape j = .valid xs ↔ shape j = .valid xs ∧ ∃ x, xs = [x] := by
  unfold oneMember
  rw [Checked.ensure_eq_valid]
  simp [List.length_eq_one_iff]

/-- A category is read off the kept members, and so are the members of what it holds. -/
theorem envelopeShape_eq_valid :
    envelopeShape j = .valid [(name, body)] ↔
      ∃ all value inner, j.members? = some all ∧ Shape.kept all = [(name, value)] ∧
        value.members? = some inner ∧ Shape.kept inner = body := by
  unfold envelopeShape
  rw [oneMember_eq_valid, Shape.record_eq_valid]
  constructor
  · rintro ⟨⟨all, hall, hkept⟩, -⟩
    obtain ⟨⟨name', value⟩, _, ⟨rfl, hvalue⟩, hnil, hcons⟩ := List.forall₂_cons_right_iff.mp hkept
    obtain rfl := List.forall₂_nil_right_iff.mp hnil
    obtain ⟨inner, hinner, hbody⟩ := Shape.record_any_eq_valid.mp hvalue
    exact ⟨all, value, inner, hall, hcons, hinner, hbody⟩
  · rintro ⟨all, value, inner, hall, hkept, hinner, hbody⟩
    refine ⟨⟨all, hall, ?_⟩, _, rfl⟩
    rw [hkept]
    exact .cons ⟨rfl, Shape.record_any_eq_valid.mpr ⟨inner, hinner, hbody⟩⟩ .nil

theorem readCategory_eq_ok :
    readCategory request = .ok (c, body) ↔ envelopeShape request = .valid [(c.name, body)] := by
  unfold readCategory
  rw [Except.bind_eq_ok]
  simp only [Checked.orFault_eq_ok]
  constructor
  · rintro ⟨all, hall, h⟩
    obtain ⟨-, ⟨name, value⟩, rfl⟩ := oneMember_eq_valid.mp hall
    dsimp only at h
    split at h
    · rename_i c' hc
      obtain ⟨rfl, rfl⟩ := Prod.mk.inj (Except.ok.inj h)
      rw [hall, Category.ofName?_eq_some.mp hc]
    · cases h
  · intro h
    refine ⟨_, h, ?_⟩
    dsimp only
    rw [Category.ofName?_eq_some.mpr rfl]

theorem isRefusal_of_readCategory (h : readCategory request = .error e) : e.IsRefusal := by
  unfold readCategory at h
  obtain hshape | ⟨all, -, hrest⟩ := Except.bind_eq_error.mp h
  · exact Checked.isRefusal_of_orFault hshape
  · dsimp only at hrest
    split at hrest
    · split at hrest
      · cases hrest
      · exact Except.error.inj hrest ▸ Or.inr rfl
    · exact Except.error.inj hrest ▸ Or.inr rfl

theorem readVariant_eq_ok :
    readVariant c body = .ok (variant, arguments) ↔ Shape.kept body = [(variant, arguments)] := by
  unfold readVariant variantShape
  rw [Except.bind_eq_ok]
  simp only [Checked.orFault_eq_ok, oneMember_eq_valid, Shape.record_any_eq_valid]
  constructor
  · rintro ⟨members, ⟨⟨all, hall, hkept⟩, x, rfl⟩, h⟩
    obtain rfl := Option.some.inj hall
    rw [hkept, Except.ok.inj h]
  · intro h
    exact ⟨_, ⟨⟨body, rfl, h⟩, _, rfl⟩, rfl⟩

theorem isRefusal_of_readVariant (h : readVariant c body = .error e) : e.IsRefusal := by
  unfold readVariant at h
  obtain hshape | ⟨members, -, hrest⟩ := Except.bind_eq_error.mp h
  · exact Checked.isRefusal_of_orFault hshape
  · split at hrest
    · cases hrest
    · exact Except.error.inj hrest ▸ Or.inr rfl

/-! ### Arguments -/

theorem optionalMember_eq_valid {o : Option String} :
    Shape.optionalMember name .text members = .valid o ↔ Query.HasFilter members name o := by
  rw [Shape.optionalMember_text_eq_valid]
  cases o <;> simp [Query.HasFilter, Inquiry.HasText]

theorem nftsArguments_eq_valid {classId owner : Option String} :
    nftsArguments j = .valid (classId, owner) ↔
      ∃ members, j.members? = some members ∧
        Query.HasFilter members "class_id" classId ∧ Query.HasFilter members "owner" owner := by
  unfold nftsArguments
  simp [Shape.object_eq_valid, optionalMember_eq_valid, Checked.seq_eq_valid,
    Checked.map_eq_valid]

/-- A question that is read off arguments of a shape. -/
theorem some_map_orFault_eq_ok {α : Type} {f : α → Query} {x : Checked α} {typeName : String} :
    (fun a => some (f a)) <$> x.orFault typeName = .ok (some q) ↔ ∃ a, x = .valid a ∧ f a = q := by
  simp only [Except.map_eq_ok, Checked.orFault_eq_ok, Option.some.injEq]

/-- Arguments are read as the question of their category and variant that they ask. -/
theorem readArguments_eq_some :
    readArguments c variant arguments = .ok (some q) ↔
      c = q.category ∧ variant = q.variant ∧
        ∃ members, arguments.members? = some members ∧ q.AskedBy members := by
  constructor
  · intro h
    unfold readArguments at h
    dsimp only at h
    cases c with
    | nft =>
      dsimp only at h
      split_ifs at h with hnft hnfts howner
      · obtain ⟨⟨classId, id⟩, hread, rfl⟩ := some_map_orFault_eq_ok.mp h
        exact ⟨rfl, hnft, Inquiry.nftArguments_eq_valid.mp hread⟩
      · obtain ⟨⟨classId, owner⟩, hread, rfl⟩ := some_map_orFault_eq_ok.mp h
        exact ⟨rfl, hnfts, nftsArguments_eq_valid.mp hread⟩
      · obtain ⟨⟨classId, id⟩, hread, rfl⟩ := some_map_orFault_eq_ok.mp h
        exact ⟨rfl, howner, Inquiry.nftArguments_eq_valid.mp hread⟩
      · cases h
    | assetNft =>
      dsimp only at h
      split_ifs at h with hclass hclasses
      · obtain ⟨id, hread, rfl⟩ := some_map_orFault_eq_ok.mp h
        exact ⟨rfl, hclass, Inquiry.textArgument_eq_valid.mp hread⟩
      · obtain ⟨issuer, hread, rfl⟩ := some_map_orFault_eq_ok.mp h
        exact ⟨rfl, hclasses, Inquiry.textArgument_eq_valid.mp hread⟩
      · cases h
    | assetFt =>
      dsimp only at h
      split_ifs at h with htoken htokens
      · obtain ⟨denom, hread, rfl⟩ := some_map_orFault_eq_ok.mp h
        exact ⟨rfl, htoken, Inquiry.textArgument_eq_valid.mp hread⟩
      · obtain ⟨issuer, hread, rfl⟩ := some_map_orFault_eq_ok.mp h
        exact ⟨rfl, htokens, Inquiry.textArgument_eq_valid.mp hread⟩
      · cases h
  · rintro ⟨rfl, rfl, hasked⟩
    cases q with
    | token denom =>
      exact some_map_orFault_eq_ok.mpr ⟨denom, Inquiry.textArgument_eq_valid.mpr hasked, rfl⟩
    | tokens issuer =>
      exact some_map_orFault_eq_ok.mpr ⟨issuer, Inquiry.textArgument_eq_valid.mpr hasked, rfl⟩
    | nftClass id =>
      exact some_map_orFault_eq_ok.mpr ⟨id, Inquiry.textArgument_eq_valid.mpr hasked, rfl⟩
    | nftClasses issuer =>
      exact some_map_orFault_eq_ok.mpr ⟨issuer, Inquiry.textArgument_eq_valid.mpr hasked, rfl⟩
    | nft classId id =>
      exact some_map_orFault_eq_ok.mpr
        ⟨(classId, id), Inquiry.nftArguments_eq_valid.mpr hasked, rfl⟩
    | nfts classId owner =>
      exact some_map_orFault_eq_ok.mpr ⟨(classId, owner), nftsArguments_eq_valid.mpr hasked, rfl⟩
    | ownerOf classId id =>
      exact some_map_orFault_eq_ok.mpr
        ⟨(classId, id), Inquiry.nftArguments_eq_valid.mpr hasked, rfl⟩

theorem isRefusal_of_readArguments (h : readArguments c variant arguments = .error e) :
    e.IsRefusal := by
  unfold readArguments at h
  dsimp only at h
  split at h <;> split_ifs at h <;>
    exact Checked.isRefusal_of_orFault (Except.map_eq_error.mp h)

/-! ### Requests -/

/-- A step that fails refuses the request, and so does an answer that nobody gives. -/
theorem isRefusal_of_readCustom (h : (readCustom request).result = .error e) : e.IsRefusal := by
  unfold readCustom at h
  rw [Noted.result_bind] at h
  obtain hcategory | ⟨⟨c, body⟩, -, h⟩ := Except.bind_eq_error.mp h
  · exact isRefusal_of_readCategory hcategory
  dsimp only at h
  rw [Noted.result_bind] at h
  obtain hvariant | ⟨⟨variant, arguments⟩, -, h⟩ := Except.bind_eq_error.mp h
  · exact isRefusal_of_readVariant hvariant
  dsimp only at h
  rw [Noted.result_bind_of_ok rfl, Noted.result_bind] at h
  obtain harguments | ⟨found, -, h⟩ := Except.bind_eq_error.mp h
  · exact isRefusal_of_readArguments harguments
  cases found with
  | none => exact Except.error.inj h ▸ Or.inr rfl
  | some found => cases h

/-- **What is read is the question of the envelope that counts.** -/
theorem readCustom_eq_ok : (readCustom request).result = .ok q ↔ q.EnvelopedIn request.counted := by
  rw [readCustom_steps]
  simp only [readCategory_eq_ok, readVariant_eq_ok, readArguments_eq_some, envelopeShape_eq_valid]
  constructor
  · rintro ⟨_, body, _, arguments, ⟨all, value, inner, hall, hkept, hinner, rfl⟩, hbody, rfl, rfl,
      members, hmembers, hasked⟩
    rw [Shape.kept_kept] at hbody
    have hvalue : (q.category.name, value) ∈ all := Shape.mem_of_kept_eq_cons hkept
    have harguments : (q.variant, arguments) ∈ inner := Shape.mem_of_kept_eq_cons hbody
    obtain rfl := Json.eq_obj_of_members? hall hvalue q.category.name_isWord
    obtain rfl := Json.eq_obj_of_members? hinner harguments q.variant_isWord
    refine ⟨arguments, members, ?_, hmembers, hasked⟩
    exact Json.counted_eq_single_iff.mpr
      ⟨all, _, rfl, hkept, Json.kept_eq_obj_iff.mpr ⟨inner, rfl, hbody⟩⟩
  · rintro ⟨arguments, members, hrequest, hmembers, hasked⟩
    obtain ⟨all, body, rfl, hkept, hbody⟩ := Json.counted_eq_single_iff.mp hrequest
    obtain ⟨inner, rfl, hinner⟩ := Json.kept_eq_obj_iff.mp hbody
    refine ⟨_, _, _, arguments, ⟨all, _, inner, rfl, hkept, rfl, rfl⟩, ?_, rfl, rfl, members,
      hmembers, hasked⟩
    rw [Shape.kept_kept, hinner]

/-! ### Answers -/

variable {nativeDenom : String}

/-- A class without a key cannot even be looked for. -/
theorem loadNft_of_not_isShort {classId : String} (h : ¬ Key.IsShort classId) (s : Store)
    (id : String) :
    loadNft s classId id = .error (Key.fault (.longSegment (Utf8.encode classId).length)) := by
  have hlong : Key.lengthPrefixed (Utf8.encode classId) =
      .error (Key.fault (.longSegment (Utf8.encode classId).length)) :=
    if_pos (Nat.lt_of_not_le h)
  have hkey : nfts.fullKey (classId, id) =
      .error (Key.fault (.longSegment (Utf8.encode classId).length)) := by
    show (nfts.root ++ ·) <$> (· ++ Utf8.encode id) <$> Key.lengthPrefixed (Utf8.encode classId) = _
    rw [hlong]
    rfl
  unfold loadNft RecordMap.load?
  rw [hkey]
  rfl

theorem loadNft_empty {classId : String} (h : Key.IsShort classId) (id : String) :
    loadNft .empty classId id = .error (.notFound (.nft classId id)) := by
  obtain ⟨b, hb⟩ : ∃ b, nfts.fullKey (classId, id) = .ok b :=
    (RecordMap.exists_fullKey_pair_iff rfl).mpr h
  unfold loadNft
  rw [(RecordMap.load?_eq_none_iff hb).mpr rfl]
  rfl

/-- What has no key is refused whatever the store holds. -/
theorem Query.answer_of_not_hasKey (h : ¬ q.HasKey) (s : Store) :
    ∃ e, q.answer nativeDenom s = .error e ∧ e.IsRefusal := by
  cases q with
  | nft classId id | ownerOf classId id =>
    refine ⟨Key.fault (.longSegment (Utf8.encode classId).length), ?_, Or.inl rfl⟩
    unfold Query.answer Query.answerJson
    dsimp only
    rw [loadNft_of_not_isShort h]
    rfl
  | token _ | tokens _ | nftClass _ | nftClasses _ | nfts _ _ => exact absurd trivial h

/-- An answer from the empty store fails only because something is not there. -/
theorem Query.error_answer_empty (h : q.HasKey) (herror : q.answer nativeDenom .empty = .error e) :
    ∃ missing, e = .notFound missing := by
  unfold Query.answer at herror
  replace herror := Except.map_eq_error.mp herror
  cases q with
  | token denom =>
    have hshow : showToken nativeDenom .empty denom = if denom = nativeDenom then
        .ok (nativeView denom) else .error (.notFound (.token denom)) := rfl
    unfold Query.answerJson at herror
    dsimp only at herror
    rw [hshow] at herror
    split_ifs at herror
    · cases herror
    · exact ⟨_, (Except.error.inj herror).symm⟩
  | nftClass id => exact ⟨.nftClass id, (Except.error.inj herror).symm⟩
  | nft classId id | ownerOf classId id =>
    unfold Query.answerJson at herror
    dsimp only at herror
    rw [loadNft_empty h] at herror
    exact ⟨.nft classId id, (Except.error.inj herror).symm⟩
  | tokens _ | nftClasses _ | nfts _ _ => cases herror

end Asset

namespace CustomModule

open Asset

/-- A request is refused as malformed or as one that nobody answers. -/
def Refuses (m : CustomModule) (s : Store) (request : Json) : Prop :=
  ∃ e, (m.query s request).result = .error e ∧ e.IsRefusal

variable {m : CustomModule} {s : Store} {request : Json} {q : Asset.Query}

theorem query_of_envelopedIn (h : q.EnvelopedIn request.counted) (s : Store) :
    (m.query s request).result = q.answer m.nativeDenom s := by
  show (answerCustom m.nativeDenom s request).result = _
  unfold answerCustom
  rw [Noted.result_bind_of_ok (readCustom_eq_ok.mpr h)]
  rfl

theorem refuses_of_not_envelopedIn (h : ∀ q : Asset.Query, ¬ q.EnvelopedIn request.counted)
    (s : Store) : m.Refuses s request := by
  cases hread : (readCustom request).result with
  | ok q => exact absurd (readCustom_eq_ok.mp hread) (h q)
  | error e =>
    refine ⟨e, ?_, isRefusal_of_readCustom hread⟩
    show (answerCustom m.nativeDenom s request).result = _
    unfold answerCustom
    rw [Noted.result_bind, hread]
    rfl

theorem not_refuses_empty (h : q.EnvelopedIn request.counted) (hkey : q.HasKey) :
    ¬ m.Refuses .empty request := by
  rintro ⟨e, he, hrefusal⟩
  rw [query_of_envelopedIn h] at he
  obtain ⟨missing, rfl⟩ := q.error_answer_empty hkey he
  exact missing.not_isRefusal hrefusal

/-- **Envelopes are answered, and what counts as one.**  An envelope counts as it stands.  A request
that counts as an envelope is answered as the question in it; any other is refused as malformed or
as unsupported.  So a request that is no envelope is refused from every store exactly if nothing in
it is reserved where the rest is the envelope of a question that could have an answer. -/
theorem envelopes_answered (m : CustomModule) (request : Json) :
    (∀ q : Asset.Query, q.EnvelopedIn request → request.counted = request) ∧
      (∀ (q : Asset.Query) (s : Store), q.EnvelopedIn request.counted →
        (m.query s request).result = q.answer m.nativeDenom s) ∧
      ((∀ q : Asset.Query, ¬ q.EnvelopedIn request.counted) → ∀ s, m.Refuses s request) ∧
      (((∀ q : Asset.Query, ¬ q.EnvelopedIn request) → ∀ s, m.Refuses s request) ↔
        ∀ q : Asset.Query, q.EnvelopedIn request.counted → q.HasKey →
          request.counted = request) := by
  refine ⟨fun q h => h.counted_eq, fun q s h => query_of_envelopedIn h s,
    refuses_of_not_envelopedIn, ?_, ?_⟩
  · intro hrefused q hq hkey
    by_contra hne
    exact not_refuses_empty hq hkey
      (hrefused (fun q' hq' => hne hq'.counted_eq) .empty)
  · intro hplain hnone s
    by_cases hq : ∃ q : Asset.Query, q.EnvelopedIn request.counted
    · obtain ⟨q, hq⟩ := hq
      have hkey : ¬ q.HasKey := fun hkey => hnone q (hplain q hq hkey ▸ hq)
      obtain ⟨e, he, hrefusal⟩ := q.answer_of_not_hasKey hkey s
      exact ⟨e, (query_of_envelopedIn hq s).trans he, hrefusal⟩
    · exact refuses_of_not_envelopedIn (not_exists.mp hq) s

/-- All NFTs, with a filter that is null and members that have no meaning. -/
def listing : Json :=
  .obj [("nft", .obj [("nfts", .obj [("class_id", .null), ("constructor", .str "")])])]

/-- Two categories. -/
def doubled : Json := .obj [("nft", .obj []), ("asset_ft", .obj [])]

/-- The listing is answered on a chain with a custom module, and two categories are refused. -/
theorem envelopes_answered_listing :
    (standard.query .empty listing).result = (Query.nfts none none).answer "ucore" .empty ∧
      standard.Refuses .empty doubled := by
  have henveloped : (Query.nfts none none).EnvelopedIn listing :=
    ⟨_, _, rfl, rfl, Or.inr rfl, Or.inl rfl⟩
  obtain ⟨hplain, hanswered, -⟩ := envelopes_answered standard listing
  obtain ⟨-, -, hrefused, -⟩ := envelopes_answered standard doubled
  have hcounted : (Query.nfts none none).EnvelopedIn listing.counted :=
    (hplain _ henveloped).symm ▸ henveloped
  exact ⟨hanswered _ _ hcounted, hrefused (fun _ => Query.not_envelopedIn_two _ _) _⟩

/-- An envelope with a second category of a reserved name. -/
def overfull : Json :=
  .obj [("asset_ft", .obj [("tokens", .obj [("issuer", .str "")])]), ("constructor", .obj [])]

/-- **A request with two categories is answered.** -/
theorem overfull_answered :
    (∀ q : Asset.Query, ¬ q.EnvelopedIn overfull) ∧
      ∃ raw, (standard.query .empty overfull).result = .ok raw := by
  refine ⟨fun _ => Query.not_envelopedIn_two _ _, ?_⟩
  exact Except.exists_ok_of_toOption (by decide +kernel)

end CustomModule

end TokenLedger
