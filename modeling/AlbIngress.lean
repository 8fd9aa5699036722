import AlbIngress.Go.Strings
import AlbIngress.Go.Tokens
import AlbIngress.Controller.Annotations
import AlbIngress.Controller.ListGrammar
import AlbIngress.Controller.Resolvers
import AlbIngress.Controller.ResolverCache
import AlbIngress.Controller.ParseAnnotations
import AlbIngress.TargetGroup.Parse
import AlbIngress.Awsutil.Route53
import AlbIngress.Sg.Permissions
import AlbIngress.Sg.Controller
import AlbIngress.Sg.Runs
import AlbIngress.Ingresses.AlbIngresses
import AlbIngress.Ingresses.Assemble
import AlbIngress.Waf.WafAcl
import AlbIngress.IngressGroup.Cluster
import AlbIngress.IngressGroup.Reconciler
import AlbIngress.IngressGroup.Safety
