import TextOps.CharClass.Script
import TextOps.CharTest.Census
import TextOps.Escape.Html
import TextOps.Escape.Rule
import TextOps.Escape.Workbench
import TextOps.Escape.Xml
import TextOps.Identifier.Converter
import TextOps.Proofs.CharClass.Algebra
import TextOps.Proofs.CharClass.Canonical
import TextOps.Proofs.CharTest.Census
import TextOps.Proofs.CharTest.Collapse
import TextOps.Proofs.CharTest.Partition
import TextOps.Proofs.CharTest.Search
import TextOps.Proofs.CharTest.Trim
import TextOps.Proofs.Escape.Agreement
import TextOps.Proofs.Escape.Buffer
import TextOps.Proofs.Escape.Events
import TextOps.Proofs.Escape.Octets
import TextOps.Proofs.Escape.Percent.Configuration
import TextOps.Proofs.Escape.Percent.Signs
import TextOps.Proofs.Escape.Replacement
import TextOps.Proofs.Escape.Rule
import TextOps.Proofs.Escape.Session
import TextOps.Proofs.Escape.Start
import TextOps.Proofs.Escape.Unchanged
import TextOps.Proofs.Escape.Url
import TextOps.Proofs.Escape.Xml
import TextOps.Proofs.Identifier.Kept
import TextOps.Proofs.Identifier.Output
import TextOps.Proofs.Identifier.Pass
import TextOps.Proofs.Identifier.Script
import TextOps.Proofs.Quoted
import TextOps.Proofs.Unicode.Lookup
