import SqlEngine.Main
import SqlEngine.Proofs.Outcome
import SqlEngine.Proofs.SearchTree.Bindings
import SqlEngine.Proofs.Index
import SqlEngine.Proofs.Cursor
import SqlEngine.Proofs.Schema
import SqlEngine.Proofs.Table.Slots
import SqlEngine.Proofs.Table.Consistency
import SqlEngine.Proofs.Condition.Meaning
import SqlEngine.Proofs.Table.Resolution
import SqlEngine.Proofs.Table.Checked
import SqlEngine.Proofs.Table.Agreement
import SqlEngine.Proofs.Database.Tables
import SqlEngine.Proofs.Database.Failure
import SqlEngine.Proofs.Database.Reports
import SqlEngine.Proofs.Table.Unindexed
import SqlEngine.Proofs.Database.Transparency
import SqlEngine.Proofs.Table.Upkeep
import SqlEngine.Proofs.Database.Atomicity
import SqlEngine.Proofs.SearchTree.Bulk
import SqlEngine.Proofs.Condition.Grammar
import SqlEngine.Proofs.Condition.Printing
import SqlEngine.Proofs.Statement.Printing
import SqlEngine.Proofs.Condition.Formula
import SqlEngine.BinaryTree
import SqlEngine.Proofs.BinaryTree.Layout
import SqlEngine.Proofs.BinaryTree.Search
import SqlEngine.Proofs.BinaryTree.Change
import SqlEngine.Proofs.BinaryTree.Removal
import SqlEngine.Proofs.BinaryTree.Build
import SqlEngine.Proofs.BinaryTree.Walk
import SqlEngine.Proofs.BinaryTree.Shape
import SqlEngine.Proofs.BinaryTree.FiniteMap
import SqlEngine.Proofs.Table.Marks
import SqlEngine.Proofs.Table.Permanence
import SqlEngine.Proofs.Token.Taking
import SqlEngine.Proofs.Condition.Acceptance
import SqlEngine.Proofs.Statement.Acceptance
import SqlEngine.Proofs.Database.Independence
import SqlEngine.Proofs.Events
import SqlEngine.Proofs.Table.Events
import SqlEngine.Proofs.Table.Replay
import SqlEngine.Proofs.Database.Log
import SqlEngine.Proofs.Index.Pairs
import SqlEngine.Proofs.Text.Pattern
import SqlEngine.Proofs.Table.Effects
import SqlEngine.Proofs.Database.Effects
import SqlEngine.Proofs.Table.Arrangement
import SqlEngine.Proofs.Database.Pages
import SqlEngine.Proofs.SearchTree.Around
import SqlEngine.Proofs.BinaryTree.Places
import SqlEngine.Proofs.SearchTree.Balance
import SqlEngine.Proofs.BinaryTree.Filling
import SqlEngine.Proofs.Token.Characters
import SqlEngine.Proofs.Token.Gap
import SqlEngine.Proofs.Token.Lexeme
import SqlEngine.Proofs.Token.Segmentation
import SqlEngine.Proofs.Token.Symbol
import SqlEngine.Proofs.Token.Rendering
import SqlEngine.Proofs.Condition.Halting
import SqlEngine.Proofs.Cursor.Calls
import SqlEngine.Proofs.Statement.Segments
import SqlEngine.Proofs.Table.Conjunction
import SqlEngine.Proofs.Statement.Halting
import SqlEngine.Proofs.BinaryTree.Recursion
