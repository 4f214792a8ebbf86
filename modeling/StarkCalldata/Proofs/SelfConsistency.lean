import StarkCalldata.Proofs.Annotations
import StarkCalldata.Proofs.Memory.PermutationProduct
import StarkCalldata.Proofs.Memory.Registration

/-!
The document is consistent with itself.

The pages, the public input and the challenges come from different stages of a preparation. The
verifier sees none of the stages, it sees the document, and recomputes from one part of it what
another part must say:

* `Registration.pageCount`, `Registration.words`: what the public input has to say about the pages;
* `Document.seed`, `Document.products`: the public input cut where the page products begin;
* `Document.IsConsistent`: the public input announces the pages, the challenges are those that the
  channel yields from it, and the product of the regular page is right;
* `Registration.Describes.words_eq`: the words of the facts are the words of their registration;
* `document_isConsistent`: every document of a verified run is consistent.
-/

namespace StarkCalldata

open Memory Preparation

/-! ### Recomputing from a document -/

namespace Registration

/-- The number of pages. -/
def pageCount (r : Registration) : ℕ :=
  (if r.regular.isSome then 1 else 0) + r.continuous.length

/-- The words about the regular page: the number of its slots and its hash. -/
def regularWords (pairs : List ℕ) : Except Fault (List ℕ) := do
  let hash ← Entry.hash (vector pairs)
  return [pairs.length / 2, hash]

/-- The words about another page: its start, the number of its values and their hash. -/
def continuousWords (page : ℕ × List ℕ) : Except Fault (List ℕ) := do
  let hash ← Entry.hash (vector page.2)
  return [page.1, page.2.length, hash]

/-- The words about all pages, the regular one first and the others in their order. -/
def words (r : Registration) : Except Fault (List ℕ) := do
  let regular ← r.regular.toList.mapM regularWords
  let continuous ← r.continuous.mapM continuousWords
  return (regular ++ continuous).flatten

end Registration

namespace Document

/-- The public input without the products of the pages, which are as many as the pages. -/
def seed (d : Document) : List ℕ := d.publicInput.take (d.publicInput.length - d.pages.pageCount)

/-- The products of the pages, at the end of the public input. -/
def products (d : Document) : List ℕ :=
  d.publicInput.drop (d.publicInput.length - d.pages.pageCount)

/-- A document is consistent with itself: its public input ends with a product for each page, and
before them with the number of the pages and the words about them; the challenges are those that the
channel yields from the part before the products; and the first product is that of the regular page,
if there is one. -/
structure IsConsistent (d : Document) (retries : Json) : Prop where
  length_products : d.products.length = d.pages.pageCount
  announces : ∃ head words, d.pages.words = .ok words ∧ d.seed = head ++ d.pages.pageCount :: words
  replays : (Challenges.replay (vector d.seed) (d.proof.map Nat.cast) retries).outcome =
    .ok ⟨d.z, d.alpha⟩
  product : ∀ pairs, d.pages.regular = some pairs → ∃ slots product,
    Registration.slots? pairs = some slots ∧ d.products.head? = some product ∧
      (product : ℤ) = slotProduct slots d.z d.alpha % Field.prime

end Document

/-! ### The words of the facts and of their registration -/

namespace Registration

variable {r : Registration} {facts : PageFacts} {info : PageInfo} {infos : List PageInfo}

/-- The words about the regular page are recomputed from its addresses and values. -/
lemma regularWords_eq_ok {slots : List Slot} {pairs : List ℕ}
    (hpairs : interleave slots = pairs.map Nat.cast) (h : facts.regularInfo slots = .ok info) :
    ∃ ws, regularWords pairs = .ok ws ∧ PublicInput.pageWords info = ws.map Nat.cast := by
  obtain ⟨hash, row, hhash, -, rfl⟩ := PageFacts.regularInfo_eq_ok.mp h
  have hlength : pairs.length / 2 = slots.length := by
    have h2 : (interleave slots).length = 2 * slots.length := by
      simp [interleave, List.length_flatMap, mul_comm]
    rw [hpairs, List.length_map] at h2
    omega
  have hvector : Entry.hash (vector pairs) = .ok hash := by
    rw [← map_int_eq_vector.mpr hpairs]
    exact hhash
  refine ⟨[pairs.length / 2, hash], ?_, ?_⟩
  · rw [regularWords, hvector]
    rfl
  · simp [PublicInput.pageWords, hlength]

/-- The words about another page are recomputed from its start and its values. -/
lemma continuousWords_eq_ok {p : ContinuousPage} {q : ℕ × List ℕ}
    (hq : (p.start, p.values) = ((q.1 : ℤ), q.2.map Nat.cast))
    (h : facts.continuousInfo p = .ok info) :
    ∃ ws, continuousWords q = .ok ws ∧ PublicInput.pageWords info = ws.map Nat.cast := by
  obtain ⟨hash, row, hhash, -, rfl⟩ := PageFacts.continuousInfo_eq_ok.mp h
  obtain ⟨hstart, hvalues⟩ := Prod.mk.inj hq
  have hvector : Entry.hash (vector q.2) = .ok hash := by
    rw [← map_int_eq_vector.mpr hvalues]
    exact hhash
  refine ⟨[q.1, q.2.length, hash], ?_, ?_⟩
  · rw [continuousWords, hvector]
    rfl
  · simp [PublicInput.pageWords, hstart, hvalues]

/-- The words about the other pages are recomputed one page after another. -/
lemma mapM_continuousWords {pages : List ContinuousPage} {qs : List (ℕ × List ℕ)}
    (hqs : pages.map (fun p => (p.start, p.values)) =
      qs.map fun q => ((q.1 : ℤ), q.2.map Nat.cast))
    (h : List.Forall₂ (fun p info => facts.continuousInfo p = .ok info) pages infos) :
    ∃ wss, qs.mapM continuousWords = .ok wss ∧
      infos.flatMap PublicInput.pageWords = wss.flatten.map Nat.cast := by
  induction h generalizing qs with
  | nil =>
      obtain rfl : qs = [] := by simpa using hqs.symm
      exact ⟨[], rfl, rfl⟩
  | @cons p info pages infos hp _ ih =>
      cases qs with
      | nil => simp at hqs
      | cons q qs =>
          rw [List.map_cons, List.map_cons, List.cons.injEq] at hqs
          obtain ⟨ws, hws, hinfo⟩ := continuousWords_eq_ok hqs.1 hp
          obtain ⟨wss, hwss, hinfos⟩ := ih hqs.2
          refine ⟨ws :: wss, ?_, ?_⟩
          · rw [List.mapM_cons, hws, hwss]
            rfl
          · rw [List.flatMap_cons, hinfo, hinfos, List.flatten_cons, List.map_append]

lemma Describes.pageCount_eq (hr : r.Describes facts) : facts.count = r.pageCount := by
  have hregular : facts.regular.isSome = r.regular.isSome := by
    have h := congrArg Option.isSome hr.regular
    rwa [PageFacts.pairs, Option.isSome_map, Option.isSome_map] at h
  have hcontinuous : facts.continuous.length = r.continuous.length := by
    simpa using congrArg List.length hr.continuous
  rw [PageFacts.count, pageCount, hregular, hcontinuous]

/-- The words of the facts are the words of the registration that describes them. -/
lemma Describes.words_eq (hr : r.Describes facts) (h : facts.sortedPages = .ok infos) :
    ∃ ws, r.words = .ok ws ∧ infos.flatMap PublicInput.pageWords = ws.map Nat.cast := by
  have hdescribed := hr.regular
  rw [PageFacts.pairs] at hdescribed
  cases hslots : facts.regular with
  | none =>
      obtain ⟨wss, hwss, hinfos⟩ :=
        mapM_continuousWords hr.continuous (PageFacts.sortedPages_of_none h hslots)
      cases hpairs : r.regular with
      | some pairs => simp [hpairs, hslots] at hdescribed
      | none =>
          refine ⟨wss.flatten, ?_, hinfos⟩
          rw [words, hpairs, hwss]
          rfl
  | some slots =>
      obtain ⟨info, rest, rfl, hinfo, hrest⟩ := PageFacts.sortedPages_eq_cons h hslots
      obtain ⟨wss, hwss, hinfos⟩ := mapM_continuousWords hr.continuous hrest
      cases hpairs : r.regular with
      | none => simp [hpairs, hslots] at hdescribed
      | some pairs =>
          rw [hpairs, hslots, Option.map_some, Option.map_some, Option.some.injEq] at hdescribed
          obtain ⟨ws, hws, hwords⟩ := regularWords_eq_ok hdescribed hinfo
          refine ⟨ws ++ wss.flatten, ?_, ?_⟩
          · rw [words, hpairs, hwss]
            simp [hws, bind, Except.bind, pure, Except.pure]
          · rw [List.flatMap_cons, hwords, hinfos, List.map_append]

end Registration

/-! ### Documents of verified runs -/

lemma vector_eq_append {ns : List ℕ} {es fs : List Entry} (h : vector ns = es ++ fs) :
    ∃ ms ks, ns = ms ++ ks ∧ vector ms = es ∧ vector ks = fs :=
  List.map_eq_append_iff.mp h

lemma map_natCast_injective : Function.Injective (List.map (Nat.cast : ℕ → ℤ)) :=
  List.map_injective_iff.mpr Nat.cast_injective

namespace Document

variable {d : Document} {v : VerifierInput} {facts : PageFacts} {infos : List PageInfo}

lemma seed_products_of_append {ms ks : List ℕ} (h : d.publicInput = ms ++ ks)
    (hlength : ks.length = d.pages.pageCount) : d.seed = ms ∧ d.products = ks := by
  have hcut : d.publicInput.length - d.pages.pageCount = ms.length := by
    rw [h, List.length_append, hlength, Nat.add_sub_cancel]
  rw [seed, products, hcut, h]
  exact ⟨List.take_left, List.drop_left⟩

/-- A document whose public input is made of a first part and the products of the pages it tells of
says just these. -/
lemma seed_products_of_describes {first : List Entry} {z alpha : ℤ}
    (hinput : vector d.publicInput = first ++ (PublicInput.products infos z alpha).map .int)
    (hpages : d.pages.Describes facts) (hinfos : facts.sortedPages = .ok infos) :
    vector d.seed = first ∧
      d.products = infos.map fun info => permutationProduct info.slots z alpha := by
  obtain ⟨ms, ks, hsplit, hms, hks⟩ := vector_eq_append hinput
  have hproducts : ks = infos.map fun info => permutationProduct info.slots z alpha := by
    refine map_natCast_injective ((map_int_eq_vector.mp hks.symm).symm.trans ?_)
    rw [PublicInput.products, List.map_map]
    rfl
  have hlength : ks.length = d.pages.pageCount := by
    rw [hproducts, List.length_map, PageFacts.length_sortedPages hinfos, hpages.pageCount_eq]
  obtain ⟨hseed, hrest⟩ := seed_products_of_append hsplit hlength
  exact ⟨hseed ▸ hms, hrest.trans hproducts⟩

/-- A first part that is made from the pages announces them. -/
lemma announces_of_seed {proof : AnnotatedProof} {layers : Json} (hpages : d.pages.Describes facts)
    (h : (PublicInput.seed proof facts layers).outcome = .ok (vector d.seed)) :
    ∃ head words, d.pages.words = .ok words ∧ d.seed = head ++ d.pages.pageCount :: words := by
  obtain ⟨opening, infos, hinfos, hopening⟩ := PublicInput.seed_eq_append h
  obtain ⟨words, hwords, hinfo_words⟩ := hpages.words_eq hinfos
  obtain ⟨head, tail, hsplit, -, htail⟩ := vector_eq_append hopening
  refine ⟨head, words, hwords, ?_⟩
  have hcast : (tail.map Nat.cast : List ℤ) = (d.pages.pageCount :: words).map Nat.cast := by
    rw [← map_int_eq_vector.mp htail.symm, hinfo_words, hpages.pageCount_eq]
    rfl
  rw [hsplit, map_natCast_injective hcast]

/-- The first product is that of the regular page. -/
lemma head?_products {cells : List Cell} {z alpha : ℤ} {pairs : List ℕ}
    (hfacts : (PageFacts.ofCells cells).outcome = .ok facts) (hpages : d.pages.Describes facts)
    (hinfos : facts.sortedPages = .ok infos)
    (hproducts : d.products = infos.map fun info => permutationProduct info.slots z alpha)
    (hpairs : d.pages.regular = some pairs) :
    ∃ slots product, Registration.slots? pairs = some slots ∧ d.products.head? = some product ∧
      (product : ℤ) = slotProduct slots z alpha % Field.prime := by
  have hdescribed := hpages.regular
  rw [PageFacts.pairs, hpairs] at hdescribed
  obtain ⟨slots, hslots, hinterleave⟩ := Option.map_eq_some_iff.mp hdescribed
  obtain ⟨info, rest, rfl, hinfo, -⟩ := PageFacts.sortedPages_eq_cons hinfos hslots
  obtain ⟨hash, row, -, hrow, rfl⟩ := PageFacts.regularInfo_eq_ok.mp hinfo
  obtain rfl : slots = row :=
    Option.some.inj ((PageFacts.lookup_regularPage hfacts hslots).symm.trans hrow)
  refine ⟨slots, permutationProduct slots z alpha, Registration.slots?_of_interleave hinterleave,
    ?_, permutationProduct_eq slots z alpha⟩
  rw [hproducts, List.map_cons, List.head?_cons]

end Document

/-- **The document of a verified run is consistent with itself**: whoever has nothing but the
document recomputes from its pages and its proof what its public input and its challenges say. -/
theorem document_isConsistent (proof : AnnotatedProof) (topologies : Option (List FactTopology))
    (config : Config) (hv : config.verifyChallenges.isTruthy = true) {j : Json}
    (h : document proof topologies config = .ok j) :
    ∃ d, Document.ofJson? j = some d ∧ d.IsConsistent config.maxChallengeRetries := by
  obtain ⟨v, hprepare, hencode⟩ := Outcome.bind_ok.mp h
  obtain ⟨d, hd, -, -, rfl⟩ := VerifierInput.encode_eq_ok.mp hencode
  refine ⟨d, Document.ofJson?_toJson d, ?_⟩
  obtain ⟨facts, seed, -, c, hground, -, hreplay, -, hcomplete⟩ := (prepare_eq_ok hv).mp hprepare
  obtain ⟨hfacts, hseed⟩ := groundwork_eq_ok.mp hground
  obtain ⟨hwhole, hz, halpha, hvfacts, hvproof⟩ := completion_eq_ok hcomplete
  obtain ⟨-, -, infos, hinfos, hinput⟩ := PublicInput.withProducts_eq_ok.mp hwhole
  have hpages : d.pages.Describes facts := hvfacts ▸ hd.pages
  obtain ⟨rfl, hproducts⟩ :=
    Document.seed_products_of_describes (hd.publicInput.symm.trans hinput) hpages hinfos
  have hproof : proof.words = d.proof.map Nat.cast :=
    map_int_eq_vector.mp (hvproof.symm.trans hd.proof)
  have hc : c = ⟨d.z, d.alpha⟩ := by
    have hdz : c.z = d.z := Json.int.inj (hz.symm.trans hd.z)
    have hdalpha : c.alpha = d.alpha := Json.int.inj (halpha.symm.trans hd.alpha)
    rw [← hdz, ← hdalpha]
  subst hc
  constructor
  · rw [hproducts, List.length_map, PageFacts.length_sortedPages hinfos, hpages.pageCount_eq]
  · exact Document.announces_of_seed hpages hseed
  · rw [← hproof]
    exact hreplay
  · exact fun pairs hpairs => Document.head?_products hfacts hpages hinfos hproducts hpairs

/-- The document of the short proof. -/
def shortDocument : Document where
  proofParams := [2, 4, 0, 0, 1, 0]
  proof := [0x101010101010101010101010101010101010101010101010101010101010101]
  publicInput := [0, 4, 0, 9, 0x74696e79, 1, 5, 2, 2,
    0xdea788dc851b5cf90e638c082cc2a3e598af63cb656c31a4e4e47d511d7aae0d, 4, 3,
    0x31f94f6453b447f311d84e7365473e40e013bf965521cf957be79743dcc5ca91,
    0x7cf8ff5c7c891a90f052df13334e5117507be5d55880835e6898125f72ed5ab,
    0x5cbb2afee1ed4df3e06e79f20cf22f8d93266a47a10b845c4596d9545a7982a]
  z := 0x53322cc8828039655877288b44290c8f575dd1538f8bd876d6568be5b81923
  alpha := 0x1e9a7be1a890dbe559c73981a2ec93693e7dc7a1164289100839e93bd40bb59
  pages := ⟨some [1, 5, 2, 6], [(4, [7, 0, 8])]⟩
  tasks := [0]
  layout := none

lemma describes_shortDocument : shortDocument.Describes shortInput := by
  have hinput : shortInput.publicInput = vector shortDocument.publicInput := by
    rw [shortInput, shortSeed, ← List.map_append]
    exact map_int_eq_vector.mpr (by decide +kernel)
  exact ⟨rfl, rfl, hinput, rfl, rfl, ⟨rfl, rfl⟩, rfl, rfl⟩

lemma document_shortProof : document shortProof none {} = .ok shortDocument.toJson :=
  Outcome.bind_ok.mpr ⟨shortInput, prepare_shortProof, VerifierInput.encode_eq_ok.mpr
    ⟨shortDocument, describes_shortDocument, by decide +kernel, by decide +kernel, rfl⟩⟩

/-- The document of the short proof is consistent with itself. -/
theorem shortDocument_isConsistent :
    ∃ d, Document.ofJson? shortDocument.toJson = some d ∧ d.IsConsistent (.int 128) :=
  document_isConsistent shortProof none {} rfl document_shortProof

end StarkCalldata
