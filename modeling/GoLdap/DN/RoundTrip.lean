import GoLdap.DN.Escape
import GoLdap.DN.Fold
import GoLdap.DN.Compose

/-!
# DN.RoundTrip — `ParseDN` reads back what `String` writes

A printed attribute is a name of its own (`parseDN_string_attribute`), and `ParseDN` is compositional.  Inductions over
the attributes of an RDN and over the RDNs give the parsed name in closed form: every RDN is `normalize`d.
-/

namespace GoLdap

open Go

variable (F : FoldOrbits) (readPacket : GoString → Except Error (GoString × GoString))

/-! ## Attributes -/

/-- An attribute as it comes back from a printed name. -/
def AttributeTypeAndValue.normalize (a : AttributeTypeAndValue) : AttributeTypeAndValue :=
  ⟨foldString F a.type, a.value⟩

theorem equals_mem_string (a : AttributeTypeAndValue) : ch '=' ∈ a.string F := by
  simp [AttributeTypeAndValue.string]

theorem isBlank_join_string {sep : GoString} (a : AttributeTypeAndValue) (as : List AttributeTypeAndValue) :
    isBlank (join sep ((a :: as).map (·.string F))) = false :=
  isBlank_of_equals (mem_join_of_mem List.mem_cons_self (equals_mem_string F a))

/-- **A printed attribute** is a name of one attribute. -/
theorem parseDN_string_attribute {a : AttributeTypeAndValue} (ha : a.type ≠ []) :
    parseDN readPacket (a.string F) = .ok ⟨[⟨[a.normalize F]⟩]⟩ := by
  rw [AttributeTypeAndValue.string, List.append_assoc]
  exact parseDN_attribute (free_equals_encodeString _) (free_separator_encodeString _ false)
    (free_separator_encodeString _ true) (decodeString_encodeString _ false) (foldString_ne_nil F ha)
    (setValue_encodeString readPacket a.value)

/-! ## Relative names -/

theorem parseDN_join_plus (a : AttributeTypeAndValue) (as : List AttributeTypeAndValue)
    (h : ∀ x ∈ a :: as, x.type ≠ []) :
    parseDN readPacket (join [ch '+'] ((a :: as).map (·.string F))) = .ok ⟨[⟨(a :: as).map (·.normalize F)⟩]⟩ := by
  induction as generalizing a with
  | nil => exact parseDN_string_attribute F readPacket (h a List.mem_cons_self)
  | cons b as ih =>
    obtain ⟨ha, has⟩ := List.forall_mem_cons.mp h
    rw [List.map_cons, List.map_cons, join_cons_cons, List.append_assoc]
    exact parseDN_append_plus (isBlank_of_equals (equals_mem_string F a)) (isBlank_join_string F b as)
      (parseDN_string_attribute F readPacket ha) (ih b has)

/-- The attributes of an RDN in the order in which they are printed. -/
def RelativeDN.sorted (r : RelativeDN) : List AttributeTypeAndValue :=
  r.attributes.insertionSort (fun a b => a.string F ≤ b.string F)

/-- An RDN as it comes back from a printed name. -/
def RelativeDN.normalize (r : RelativeDN) : RelativeDN := ⟨(r.sorted F).map (·.normalize F)⟩

theorem sorted_perm (r : RelativeDN) : (r.sorted F).Perm r.attributes := List.perm_insertionSort _ _

theorem string_eq_join_sorted (r : RelativeDN) : r.string F = join [ch '+'] ((r.sorted F).map (·.string F)) := by
  unfold RelativeDN.string RelativeDN.sorted sortStrings
  rw [List.map_insertionSort (r := fun a b : AttributeTypeAndValue => a.string F ≤ b.string F) (s := (· ≤ ·))
    (fun a : AttributeTypeAndValue => a.string F) _ (fun a _ b _ => Iff.rfl)]

/-- An RDN that can be printed and read back. -/
def RelativeDN.WellFormed (r : RelativeDN) : Prop := r.attributes ≠ [] ∧ ∀ a ∈ r.attributes, a.type ≠ []

/-- A DN that can be printed and read back: every RDN has an attribute, every attribute a type. -/
def DN.WellFormed (d : DN) : Prop := ∀ r ∈ d.rdns, r.WellFormed

theorem sorted_eq_cons {r : RelativeDN} (hr : r.WellFormed) :
    ∃ a as, r.sorted F = a :: as ∧ ∀ x ∈ a :: as, x.type ≠ [] := by
  have hperm := sorted_perm F r
  cases hsorted : r.sorted F with
  | nil =>
    rw [hsorted] at hperm
    exact absurd hperm.symm.eq_nil hr.1
  | cons a as =>
    rw [hsorted] at hperm
    exact ⟨a, as, rfl, fun x hx => hr.2 x (hperm.subset hx)⟩

/-- A printed RDN is a name of one RDN, and it is not blank. -/
theorem parseDN_string_rdn {r : RelativeDN} (hr : r.WellFormed) :
    parseDN readPacket (r.string F) = .ok ⟨[r.normalize F]⟩ ∧ isBlank (r.string F) = false := by
  obtain ⟨a, as, has, htypes⟩ := sorted_eq_cons F hr
  rw [string_eq_join_sorted, RelativeDN.normalize, has]
  exact ⟨parseDN_join_plus F readPacket a as htypes, isBlank_join_string F a as⟩

/-! ## Names -/

theorem parseDN_join_comma (r : RelativeDN) (rs : List RelativeDN) (h : ∀ x ∈ r :: rs, x.WellFormed) :
    parseDN readPacket (join [ch ','] ((r :: rs).map (·.string F))) = .ok ⟨(r :: rs).map (·.normalize F)⟩ ∧
      isBlank (join [ch ','] ((r :: rs).map (·.string F))) = false := by
  induction rs generalizing r with
  | nil => exact parseDN_string_rdn F readPacket (h r List.mem_cons_self)
  | cons q rs ih =>
    obtain ⟨hr, hrs⟩ := List.forall_mem_cons.mp h
    obtain ⟨hparse, hblank⟩ := parseDN_string_rdn F readPacket hr
    obtain ⟨hparse', hblank'⟩ := ih q hrs
    rw [List.map_cons, List.map_cons, join_cons_cons, List.append_assoc]
    exact ⟨parseDN_append_comma (.inl rfl) hblank hblank' hparse hparse', isBlank_append_separator (.inl rfl) _ _⟩

/-- A DN as it comes back from a printed name. -/
def DN.normalize (d : DN) : DN := ⟨d.rdns.map (·.normalize F)⟩

/-- The parsed name in closed form. -/
theorem parseDN_string_eq {d : DN} (hd : d.WellFormed) : parseDN readPacket (d.string F) = .ok (d.normalize F) := by
  obtain ⟨rdns⟩ := d
  cases rdns with
  | nil => rfl
  | cons r rs => exact (parseDN_join_comma F readPacket r rs hd).1

/-! ## The parsed name prints the same and is equal -/

theorem string_normalize_attribute (a : AttributeTypeAndValue) : (a.normalize F).string F = a.string F := by
  unfold AttributeTypeAndValue.string AttributeTypeAndValue.normalize
  rw [foldString_idem]

theorem map_string_normalize (l : List AttributeTypeAndValue) :
    (l.map (·.normalize F)).map (·.string F) = l.map (·.string F) := by
  rw [List.map_map]
  exact List.map_congr_left fun a _ => string_normalize_attribute F a

theorem sorted_pairwise (r : RelativeDN) : ((r.sorted F).map (·.string F)).Pairwise (· ≤ ·) := by
  have hmap := List.map_insertionSort (r := fun a b : AttributeTypeAndValue => a.string F ≤ b.string F) (s := (· ≤ ·))
    (fun a : AttributeTypeAndValue => a.string F) r.attributes (fun a _ b _ => Iff.rfl)
  unfold RelativeDN.sorted
  rw [hmap]
  exact List.pairwise_insertionSort _ _

theorem string_normalize_rdn (r : RelativeDN) : (r.normalize F).string F = r.string F := by
  have hs : sortStrings (((r.sorted F).map (·.normalize F)).map (·.string F)) = (r.sorted F).map (·.string F) := by
    rw [map_string_normalize]
    exact List.Pairwise.insertionSort_eq (sorted_pairwise F r)
  rw [string_eq_join_sorted F r, ← hs]
  rfl

theorem string_normalize_dn (d : DN) : (d.normalize F).string F = d.string F := by
  unfold DN.string DN.normalize
  dsimp only
  rw [List.map_map]
  congr 1
  exact List.map_congr_left fun r _ => string_normalize_rdn F r

section Equal

theorem equal_normalize (a : AttributeTypeAndValue) : a.equal F (a.normalize F) = true := by
  simp [AttributeTypeAndValue.equal, AttributeTypeAndValue.normalize, equalFold_foldString]

theorem equal_normalize_rdn (r : RelativeDN) : (r.normalize F).equal F r = true := by
  rw [rdn_equal_eq, equalBy_iff_matching (equivalence_equal F), GreedyMatch.matching_iff_perm]
  refine ⟨r.sorted F, sorted_perm F r, ?_⟩
  rw [RelativeDN.normalize, List.forall₂_map_left_iff, List.forall₂_same]
  exact fun a _ => equal_symm F (equal_normalize F a)

theorem equal_normalize_dn (d : DN) : (d.normalize F).equal F d = true := by
  rw [dn_equal_eq, equalBy_iff_forall₂, DN.normalize, List.forall₂_map_left_iff, List.forall₂_same]
  exact fun r _ => equal_normalize_rdn F r

end Equal

/-- **Print/parse round trip.**  A DN whose RDNs have attributes and whose attributes have types is read back from its
printed form with the same RDNs in the same order.  The attributes of every RDN come in the byte order of their printed
forms, with folded types and their own values; the result is equal to the DN and prints the same. -/
theorem parseDN_string (d : DN) (hd : d.WellFormed) :
    ∃ d', parseDN readPacket (d.string F) = .ok d' ∧
      List.Forall₂ (fun r r' : RelativeDN => ∃ as : List AttributeTypeAndValue, as.Perm r.attributes ∧
        (as.map (·.string F)).Pairwise (· ≤ ·) ∧
        r'.attributes = as.map (fun a => ⟨foldString F a.type, a.value⟩)) d.rdns d'.rdns ∧
      d'.equal F d = true ∧ d'.string F = d.string F := by
  refine ⟨d.normalize F, parseDN_string_eq F readPacket hd, ?_, equal_normalize_dn F d, string_normalize_dn F d⟩
  unfold DN.normalize
  dsimp only
  rw [List.forall₂_map_right_iff, List.forall₂_same]
  exact fun r _ => ⟨r.sorted F, sorted_perm F r, sorted_pairwise F r, rfl⟩

/-- The round trip of `CN=# ,\,+O=<0xFF 0x00>`, with no value in the hexadecimal form for the packet reader. -/
theorem parseDN_string_two_attributes :
    ∃ d', parseDN (fun _ => .error (.new "unexpected EOF"))
        (DN.string latinOrbits ⟨[⟨[⟨str "CN", str "# ,\\"⟩, ⟨str "O", [0xFF, 0]⟩]⟩]⟩) = .ok d' ∧
      List.Forall₂ (fun r r' : RelativeDN => ∃ as : List AttributeTypeAndValue, as.Perm r.attributes ∧
        (as.map (·.string latinOrbits)).Pairwise (· ≤ ·) ∧
        r'.attributes = as.map (fun a => ⟨foldString latinOrbits a.type, a.value⟩))
        [⟨[⟨str "CN", str "# ,\\"⟩, ⟨str "O", [0xFF, 0]⟩]⟩] d'.rdns ∧
      d'.equal latinOrbits ⟨[⟨[⟨str "CN", str "# ,\\"⟩, ⟨str "O", [0xFF, 0]⟩]⟩]⟩ = true ∧
      d'.string latinOrbits = DN.string latinOrbits ⟨[⟨[⟨str "CN", str "# ,\\"⟩, ⟨str "O", [0xFF, 0]⟩]⟩]⟩ := by
  refine parseDN_string latinOrbits _ ⟨[⟨[⟨str "CN", str "# ,\\"⟩, ⟨str "O", [0xFF, 0]⟩]⟩]⟩ ?_
  simp [DN.WellFormed, RelativeDN.WellFormed, str]

end GoLdap
