import OutcomeAssurance.CaseModel

/-! # The shipped fixtures

    The four cases under `app/fixtures` with their sources, as
    `load_case_fixture` reads them. -/

namespace Fixtures

open CaseModel PyDict

/-- 2026-08-07T00:00:00Z. -/
def asOf : Instant := 1786060800000000

/-! ## Sources -/

def kogan : Source where
  sourceId := "SRC-KOGAN-GUARANTEE"
  url := "https://www.kogan.com/au/guarantee/"
  title := "Kogan Guarantee"
  sourceClass := "retailer_policy"
  retrievedAt := asOf
  effectiveAt := some asOf
  contentHash := "sha256:synthetic-kogan-guarantee"
  version := "v1"
  allowedForEvidence := true
  excerpt := some
    "Marketplace retailers may offer refunds or replacements beyond statutory rights."
  excerptKind := some "paraphrase"

def accc : Source where
  sourceId := "SRC-ACCC-RIGHTS"
  url := "https://www.accc.gov.au/consumers/buying-products-and-services/consumer-rights-and-guarantees"
  title := "Consumer rights and guarantees"
  sourceClass := "accc_guidance"
  retrievedAt := asOf
  effectiveAt := some asOf
  contentHash := "sha256:synthetic-accc-rights"
  version := "v1"
  allowedForEvidence := true
  excerpt := some
    "Consumers can seek remedies, but entitlement depends on the facts and applicable policy."
  excerptKind := some "paraphrase"

def faultMajor : Source where
  sourceId := "SRC-FAULT-MAJOR"
  url := "https://example.test/synthetic-fault-report-major"
  title := "Synthetic technician fault report"
  sourceClass := "fault_assessment"
  retrievedAt := asOf
  effectiveAt := some 1780617600000000
  contentHash := "sha256:synthetic-fault-major-002"
  version := "v1"
  allowedForEvidence := true
  faultConclusion := some "major"
  excerpt := some
    "Technician assessment confirms major failure: motherboard does not power on after 3 weeks of use."
  excerptKind := some "paraphrase"

def faultMinor : Source where
  sourceId := "SRC-FAULT-MINOR"
  url := "https://example.test/synthetic-fault-report-minor"
  title := "Synthetic technician fault report"
  sourceClass := "fault_assessment"
  retrievedAt := asOf
  effectiveAt := some 1784678400000000
  contentHash := "sha256:synthetic-fault-minor-003"
  version := "v1"
  allowedForEvidence := true
  faultConclusion := some "minor"
  excerpt := some
    "Technician assessment: minor cosmetic scratch on the screen bezel, not a major failure."
  excerptKind := some "paraphrase"

/-! ## Cases -/

/-- `case["event"]` of a shipped case. -/
def eventOf (delivery failure : String) : Dict String EventValue :=
  Dict.ofPairs [
    ("delivery_date", .text delivery),
    ("failure_start_date", .text failure),
    ("seller_response", .text "Please contact the manufacturer.")]

/-- `synthetic_case.json`. -/
def hero : Case where
  caseId := "CASE-RET-001"
  orderRef := "ORD-1001"
  sellerRef := "SELLER-900"
  productRef := "PROD-LAPTOP-01"
  riskBand := "medium"
  asOf := asOf
  sourceRefs := ["SRC-KOGAN-GUARANTEE", "SRC-ACCC-RIGHTS"]
  event := eventOf "2026-06-01" "2026-07-16"
  customerRequest := "refund"

def majorFaultCase : Case where
  caseId := "CASE-RET-002"
  orderRef := "ORD-1002"
  sellerRef := "SELLER-901"
  productRef := "PROD-LAPTOP-02"
  riskBand := "high"
  asOf := asOf
  sourceRefs := ["SRC-KOGAN-GUARANTEE", "SRC-ACCC-RIGHTS", "SRC-FAULT-MAJOR"]
  event := eventOf "2026-05-10" "2026-06-02"
  customerRequest := "refund"

def minorFaultCase : Case where
  caseId := "CASE-RET-003"
  orderRef := "ORD-1003"
  sellerRef := "SELLER-902"
  productRef := "PROD-TABLET-01"
  riskBand := "low"
  asOf := asOf
  sourceRefs := ["SRC-KOGAN-GUARANTEE", "SRC-ACCC-RIGHTS", "SRC-FAULT-MINOR"]
  event := eventOf "2026-07-01" "2026-07-20"
  customerRequest := "refund"

def unverifiedSellerCase : Case where
  caseId := "CASE-RET-004"
  orderRef := "ORD-1004"
  sellerRef := "SELLER-999-UNVERIFIED"
  productRef := "PROD-MONITOR-01"
  riskBand := "high"
  asOf := asOf
  sourceRefs := ["SRC-KOGAN-GUARANTEE", "SRC-ACCC-RIGHTS"]
  event := eventOf "2026-06-15" "2026-07-30"
  customerRequest := "refund"

end Fixtures
